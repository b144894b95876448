import Wisphive.ClientFeed
import Wisphive.Proofs.QueueOperations

/-! What the operations of the queue do to the live ids, and what they broadcast about
that under the same lock. -/

namespace Wisphive
open Foundation

/-- One change of the queue with its broadcasts. -/
inductive QueueMove (before after : DecisionQueue) : List FeedMessage → Prop where
  | quiet (live : ∀ id, Live after id ↔ Live before id) (items : after.pendingItems ⊆ before.pendingItems) :
    QueueMove before after []
  | admitted (req : DecisionRequest) (absent : ¬ Live before req.id)
      (live : ∀ id, Live after id ↔ id = req.id ∨ Live before id) : QueueMove before after [.newDecision req]
  | settled (id : Uuid) (present : Live before id) (live : ∀ other, Live after other ↔ other ≠ id ∧ Live before other)
      (items : after.pendingItems ⊆ before.pendingItems) : QueueMove before after [.decisionResolved id]

/-- Some changes one after the other. The collections agree throughout. -/
inductive QueuePath (before : DecisionQueue) : DecisionQueue → List FeedMessage → Prop where
  | refl : QueuePath before before []
  | move {middle after earlier later} (path : QueuePath before middle earlier) (move : QueueMove middle after later)
      (outputs : ∃ new, after.channels.outputs = new ++ middle.channels.outputs ∧
        new.reverse.filterMap Output.broadcast = later)
      (collections : Collections middle → Collections after) : QueuePath before after (earlier ++ later)

namespace QueuePath
variable {before middle after : DecisionQueue} {messages earlier later : List FeedMessage}

theorem collections (path : QueuePath before after messages) (valid : Collections before) : Collections after := by
  induction path with
  | refl => exact valid
  | move _ _ _ collections ih => exact collections ih

theorem outputs (path : QueuePath before after messages) : ∃ new,
    after.channels.outputs = new ++ before.channels.outputs ∧ new.reverse.filterMap Output.broadcast = messages := by
  induction path with
  | refl => exact ⟨[], rfl, rfl⟩
  | move _ _ outputs _ ih =>
    obtain ⟨old, earlier, rfl⟩ := ih
    obtain ⟨new, later, rfl⟩ := outputs
    refine ⟨new ++ old, ?_, ?_⟩
    · rw [later, earlier, List.append_assoc]
    · rw [List.reverse_append, List.filterMap_append]

/-- The broadcasts of an operation are those of its changes. -/
theorem broadcasts (path : QueuePath before after messages) : before.broadcasts after = messages := by
  obtain ⟨new, outputs, rfl⟩ := path.outputs
  rw [DecisionQueue.broadcasts, outputs, List.length_append, Nat.add_sub_cancel, List.take_left']
  rfl

theorem trans (first : QueuePath before middle earlier) (last : QueuePath middle after later) :
    QueuePath before after (earlier ++ later) := by
  induction last with
  | refl => rwa [List.append_nil]
  | move _ move outputs collections ih =>
    rw [← List.append_assoc]
    exact ih.move move outputs collections

/-- Without a new decision the queue only shrinks. -/
theorem items (path : QueuePath before after messages) (settling : ∀ req, .newDecision req ∉ messages) :
    after.pendingItems ⊆ before.pendingItems := by
  induction path with
  | refl => exact fun _ member => member
  | move _ move _ _ ih =>
    have shrunk := ih fun req member => settling req (List.mem_append_left _ member)
    cases move with
    | quiet _ items | settled _ _ _ items => exact fun _ member => shrunk (items member)
    | admitted req => exact absurd (List.mem_append_right _ (List.mem_singleton.mpr rfl)) (settling req)

theorem single (move : QueueMove before after messages)
    (outputs : ∃ new, after.channels.outputs = new ++ before.channels.outputs ∧
      new.reverse.filterMap Output.broadcast = messages)
    (collections : Collections before → Collections after) : QueuePath before after messages :=
  QueuePath.refl.move move outputs collections

end QueuePath

namespace DecisionQueue
variable {queue : DecisionQueue}

/-- What leaves the queue without a broadcast changes nothing that a client sees. -/
theorem path_channels (channels : Channels)
    (outputs : ∃ new, channels.outputs = new ++ queue.channels.outputs ∧
      new.reverse.filterMap Output.broadcast = []) : QueuePath queue { queue with channels } [] :=
  .single (.quiet (fun _ => Iff.rfl) fun _ member => member) outputs fun valid => valid.emitted channels

theorem path_settled {id : Uuid} {settled : DecisionQueue} (settles : Settles id queue settled) (present : Live queue id)
    (outputs : ∃ new, settled.channels.outputs = new ++ queue.channels.outputs ∧
      new.reverse.filterMap Output.broadcast = [.decisionResolved id]) :
    QueuePath queue settled [.decisionResolved id] :=
  .single (.settled id present settles.live (settles.items ▸ List.filter_subset_self _)) outputs settles.collections

theorem path_enqueueInner (req : DecisionRequest) (managedSpawn : Bool) :
    ∃ messages, QueuePath queue (queue.enqueueInner req managedSpawn).2 messages := by
  rcases queue.enqueueInner_cases req managedSpawn with refused | ⟨admitted, admits, accepted⟩
  · rw [refused]
    exact ⟨[], .refl⟩
  · rw [accepted]
    exact ⟨_, .single (.admitted req admits.absent admits.live) ⟨[_], admits.outputs, rfl⟩ admits.collections⟩

/-- An operation that admits nothing. -/
def Settling (before after : DecisionQueue) : Prop :=
  ∃ messages, QueuePath before after messages ∧ ∀ req, .newDecision req ∉ messages

theorem Settling.refl : Settling queue queue :=
  ⟨[], .refl, fun _ => List.not_mem_nil⟩

theorem Settling.trans {before middle after : DecisionQueue} (first : Settling before middle)
    (last : Settling middle after) : Settling before after := by
  obtain ⟨earlier, start, left⟩ := first
  obtain ⟨later, finish, right⟩ := last
  exact ⟨_, start.trans finish, fun req member => (List.mem_append.mp member).elim (left req) (right req)⟩

theorem Settling.of_channels (channels : Channels) (outputs : ∃ new, channels.outputs = new ++ queue.channels.outputs ∧
    new.reverse.filterMap Output.broadcast = []) : Settling queue { queue with channels } :=
  ⟨[], path_channels channels outputs, fun _ => List.not_mem_nil⟩

theorem Settling.of_settled {id : Uuid} {settled : DecisionQueue} (settles : Settles id queue settled)
    (present : Live queue id) (outputs : ∃ new, settled.channels.outputs = new ++ queue.channels.outputs ∧
      new.reverse.filterMap Output.broadcast = [.decisionResolved id]) : Settling queue settled :=
  ⟨_, path_settled settles present outputs, fun req member => by simp at member⟩

theorem settling_resolve (valid : Collections queue) (id : Uuid) (rich : RichDecision) :
    Settling queue (queue.resolve id rich).2 := by
  rcases queue.resolve_cases id rich with refused | ⟨sender, settled, _, found, settles, outputs, resolved⟩
  · rw [refused]
    exact .refl
  · rw [resolved]
    have live : Live queue id := .inl (AList.lookup_isSome.mp (found ▸ rfl))
    exact (Settling.of_settled (settles valid) live ⟨[_], outputs, rfl⟩).trans (.of_channels _ ⟨[_], rfl, rfl⟩)

theorem settling_resolveEach (valid : Collections queue) (rich : RichDecision) (ids : List Uuid) :
    Settling queue (queue.resolveEach rich ids) := by
  induction ids generalizing queue with
  | nil => exact .refl
  | cons id rest ih =>
    have first := settling_resolve valid id rich
    obtain ⟨messages, path, settling⟩ := first
    exact Settling.trans ⟨messages, path, settling⟩ (ih (path.collections valid))

theorem settling_claim (valid : Collections queue) (id : Uuid) : Settling queue (queue.claim id).2 := by
  rcases claim_cases valid id with missing | ⟨request, sender, claimed, _, claims, found⟩
  · rw [missing]
    exact .refl
  · rw [found]
    have quiet : QueueMove queue claimed [] := .quiet claims.live (claims.items ▸ List.filter_subset_self _)
    exact ⟨[], .single quiet ⟨[], by rw [claims.channels]; rfl, rfl⟩ claims.collections, fun _ => List.not_mem_nil⟩

theorem settling_completeClaim (valid : Collections queue) (claim : ClaimedDecision) (rich : RichDecision) :
    Settling queue (queue.completeClaim claim rich).2 := by
  rcases queue.completeClaim_cases claim rich with ⟨_, dropped⟩ | ⟨settled, present, settles, outputs, completed⟩
  · rw [dropped]
    exact .of_channels _ ⟨[_], rfl, rfl⟩
  · rw [completed]
    exact (Settling.of_settled (settles valid) (.inr present) ⟨[_], outputs, rfl⟩).trans (.of_channels _ ⟨[_], rfl, rfl⟩)

theorem settling_finalizeLocal (valid : Collections queue) (id : Uuid) (decision : Decision) :
    Settling queue (queue.finalizeLocal id decision).2 := by
  by_cases live : Live queue id
  · obtain ⟨channels, dropped, _, settles, emitted⟩ := finalizeLocal_live live decision
    have first : Settling queue { queue with channels } := by
      rcases dropped with rfl | ⟨sender, rfl⟩
      · exact .refl
      · exact .of_channels _ ⟨[_], rfl, rfl⟩
    exact first.trans (.of_settled settles live ⟨[.decisionResolved id decision], by rw [emitted]; rfl, rfl⟩)
  · rw [finalizeLocal_absent valid live]
    exact .refl

end DecisionQueue

/-- Every operation is a path of changes, and only an enqueue admits a request. -/
theorem QueueRun.step_path {run after : QueueRun} {operation : QueueOperation} (valid : Collections run.queue)
    (taken : run.step operation = some after) : ∃ messages, QueuePath run.queue after.queue messages ∧
      ((∀ req, operation ≠ .enqueue req ∧ operation ≠ .enqueueManagedSpawn req) → ∀ req, .newDecision req ∉ messages) := by
  have settled : DecisionQueue.Settling run.queue after.queue →
      ∃ messages, QueuePath run.queue after.queue messages ∧
        ((∀ req, operation ≠ .enqueue req ∧ operation ≠ .enqueueManagedSpawn req) →
          ∀ req, .newDecision req ∉ messages) :=
    fun ⟨messages, path, settling⟩ => ⟨messages, path, fun _ => settling⟩
  cases operation with
  | enqueue req =>
    cases taken
    obtain ⟨messages, path⟩ := DecisionQueue.path_enqueueInner req false
    exact ⟨messages, path, fun other => absurd rfl (other req).1⟩
  | enqueueManagedSpawn req =>
    cases taken
    obtain ⟨messages, path⟩ := DecisionQueue.path_enqueueInner req true
    exact ⟨messages, path, fun other => absurd rfl (other req).2⟩
  | resolve id rich =>
    cases taken
    exact settled (DecisionQueue.settling_resolve valid id rich)
  | resolveAll filter decision resolver =>
    cases taken
    exact settled (DecisionQueue.settling_resolveEach valid _ _)
  | claim id =>
    cases taken
    exact settled (DecisionQueue.settling_claim valid id)
  | completeClaim position rich =>
    obtain ⟨claim, _, rfl⟩ := Option.map_eq_some_iff.mp taken
    exact settled (DecisionQueue.settling_completeClaim valid claim rich)
  | finalizeLocal id decision =>
    cases taken
    exact settled (DecisionQueue.settling_finalizeLocal valid id decision)
  | dropClaim position =>
    obtain ⟨claim, _, rfl⟩ := Option.map_eq_some_iff.mp taken
    exact settled (.of_channels _ ⟨[_], rfl, rfl⟩)
  | dropReceiver channel =>
    cases taken
    exact settled (.of_channels _ ⟨[], rfl, rfl⟩)

namespace ClientFeed
variable {feed after : ClientFeed} {event : FeedEvent}

@[simp] theorem broadcast_run (feed : ClientFeed) (messages : List FeedMessage) : (feed.broadcast messages).run = feed.run := by
  unfold broadcast
  split <;> rfl

@[simp] theorem operate_run (feed : ClientFeed) (run : QueueRun) : (feed.operate run).run = run :=
  broadcast_run ..

/-- Only the queue's operations touch the queue. -/
theorem step_run (taken : feed.step event = some after) :
    after.run = feed.run ∨ ∃ operation, event = .queue operation ∧ feed.run.step operation = some after.run := by
  cases event with
  | queue operation =>
    obtain ⟨run, moved, rfl⟩ := Option.map_eq_some_iff.mp taken
    exact .inr ⟨operation, rfl, by rw [operate_run]; exact moved⟩
  | register agentId agentType project | touch agentId | reap timeout | clock wall =>
    cases taken
    exact .inl rfl
  | exited agentId | publish =>
    cases taken
    exact .inl (broadcast_run ..)
  | announce position =>
    obtain ⟨⟨message, next⟩, announced, rfl⟩ := Option.map_eq_some_iff.mp taken
    rw [broadcast_run]
    simp only [ClientFeed.announced] at announced
    split at announced <;> cases announced
    exact .inl rfl
  | subscribe | writeAgents | writeQueue =>
    simp only [step] at taken
    split at taken <;> cases taken
    exact .inl rfl
  | forward =>
    simp only [step] at taken
    split at taken
    · obtain ⟨⟨received, subscription⟩, _, rfl⟩ := Option.map_eq_some_iff.mp taken
      cases received <;> exact .inl rfl
    · cases taken
  | receive =>
    simp only [step] at taken
    split at taken <;> cases taken
    exact .inl rfl

/-- The collections of the queue agree through every step. -/
theorem step_collections (valid : Collections feed.run.queue) (taken : feed.step event = some after) :
    Collections after.run.queue := by
  rcases step_run taken with same | ⟨operation, _, moved⟩
  · rwa [same]
  · obtain ⟨messages, path, _⟩ := QueueRun.step_path valid moved
    exact path.collections valid

end ClientFeed

end Wisphive
