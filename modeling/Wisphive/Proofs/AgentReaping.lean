import Wisphive.AgentReaping

/-! While the reaper holds the queue's lock, what it collected is what the queue holds,
so it spares every agent with a live decision. -/

namespace Wisphive
open Foundation

namespace AgentRegistry
variable {registry : AgentRegistry} {agentId : String} {now : DateTime}

theorem mem_register (agentType : AgentType) (project : PathBuf) (other : String) (known : agentId ∈ registry) :
    agentId ∈ (registry.register other agentType project now).2 := by
  unfold register
  split <;> exact (AList.mem_insert _).mpr (.inr known)

theorem mem_touch (other : String) (known : agentId ∈ registry) : agentId ∈ registry.touch other now := by
  unfold touch
  split
  · exact (AList.mem_insert _).mpr (.inr known)
  · exact known

theorem mem_eraseEach {agents : List String} : agentId ∈ registry.eraseEach agents ↔ agentId ∈ registry ∧ agentId ∉ agents := by
  induction agents generalizing registry with
  | nil => simp [eraseEach]
  | cons first rest ih =>
    rw [eraseEach, ih, AList.mem_erase, List.mem_cons, not_or]
    tauto

theorem expired_spares {timeout : Nat} {keepAlive : List String} (kept : agentId ∈ keepAlive) :
    agentId ∉ registry.expired timeout keepAlive now := by
  intro member
  obtain ⟨entry, listed, rfl⟩ := List.mem_map.mp member
  have chosen := (List.mem_filter.mp listed).2
  simp only [decide_eq_true_eq] at chosen
  exact chosen.2 kept

end AgentRegistry

namespace AgentReaping
open AgentRegistry

variable {system before after : AgentReaping}

/-- What was collected under the lock is still what the queue holds. -/
def Collected (system : AgentReaping) : Prop :=
  ∀ keepAlive, system.reaper = .collected keepAlive ∨ system.reaper = .registryLocked keepAlive →
    keepAlive = system.run.queue.pendingAgentIds

theorem Collected.advance (collected : Collected system) : Collected system.advance := by
  unfold AgentReaping.advance
  intro keepAlive held
  cases phase : system.reaper with
  | queueLocked =>
    simp only [phase] at held ⊢
    rcases held with same | same <;> cases same
    rfl
  | collected agents =>
    simp only [phase] at held ⊢
    rcases held with same | same
    · cases same
    · cases same
      exact collected keepAlive (.inl phase)
  | announcing agents =>
    cases agents <;> simp only [phase] at held <;> rcases held with same | same <;> cases same
  | idle | registryLocked | reaped =>
    simp only [phase] at held
    rcases held with same | same <;> cases same

theorem Collected.step (collected : Collected before) {event : ReapingEvent} (taken : before.step event = some after) :
    Collected after := by
  cases event with
  | queue operation =>
    simp only [AgentReaping.step] at taken
    split at taken
    next free =>
      obtain ⟨run, _, rfl⟩ := Option.map_eq_some_iff.mp taken
      intro keepAlive held
      change before.reaper = _ ∨ before.reaper = _ at held
      rcases held with same | same <;> rw [queueFree, same] at free <;> cases free
    next => cases taken
  | register | touch =>
    simp only [AgentReaping.step] at taken
    split at taken
    · cases taken
      exact collected
    · cases taken
  | reap =>
    cases taken
    exact collected.advance
  | clock =>
    cases taken
    exact collected

/-- The reaper removes no agent that it collected. -/
theorem advance_keeps (collected : Collected system) {agentId : String} (registered : agentId ∈ system.registry)
    (live : agentId ∈ system.run.queue.pendingAgentIds) : agentId ∈ system.advance.registry := by
  cases phase : system.reaper with
  | registryLocked keepAlive =>
    have same := collected keepAlive (.inr phase)
    subst same
    simp only [advance, phase]
    exact mem_eraseEach.mpr ⟨registered, expired_spares live⟩
  | announcing agents =>
    cases agents <;> simpa only [advance, phase] using registered
  | idle | queueLocked | collected | reaped => simpa only [advance, phase] using registered

theorem step_keeps (collected : Collected before) {event : ReapingEvent} (taken : before.step event = some after)
    {agentId : String} (registered : agentId ∈ before.registry) (live : agentId ∈ before.run.queue.pendingAgentIds) :
    agentId ∈ after.registry := by
  cases event with
  | queue operation =>
    simp only [AgentReaping.step] at taken
    split at taken
    · obtain ⟨run, _, rfl⟩ := Option.map_eq_some_iff.mp taken
      exact registered
    · cases taken
  | register agentType project other =>
    simp only [AgentReaping.step] at taken
    split at taken
    · cases taken
      exact mem_register _ _ _ registered
    · cases taken
  | touch other =>
    simp only [AgentReaping.step] at taken
    split at taken
    · cases taken
      exact mem_touch _ registered
    · cases taken
  | reap =>
    cases taken
    exact advance_keeps collected registered live
  | clock =>
    cases taken
    exact registered

theorem reachable_collected {timeout : Nat} (reached : (machine timeout).Reachable Machine.free system) :
    Collected system := by
  refine reached.invariant (fun keepAlive held => ?_) fun _ _ _ collected _ taken => collected.step taken
  rcases held with same | same <;> cases same

end AgentReaping

/-- Whatever happens, an agent that leaves the registry has neither a pending nor a
claimed request. -/
theorem live_agents_kept {timeout : Nat} {before after : AgentReaping} {event : ReapingEvent} {agentId : String}
    (reached : (AgentReaping.machine timeout).Reachable Machine.free before)
    (taken : before.step event = some after) (registered : agentId ∈ before.registry)
    (removed : agentId ∉ after.registry) :
    (∀ req ∈ before.run.queue.pendingItems, req.agentId ≠ agentId) ∧
      ∀ id req, before.run.queue.claimedItems.lookup id = some req → req.agentId ≠ agentId := by
  have absent : agentId ∉ before.run.queue.pendingAgentIds := fun live =>
    removed (AgentReaping.step_keeps (AgentReaping.reachable_collected reached) taken registered live)
  have listed {req : DecisionRequest}
      (member : req ∈ before.run.queue.pendingItems ++ before.run.queue.claimedItems.entries.map (·.2)) :
      req.agentId ≠ agentId :=
    fun same => absent (List.mem_map.mpr ⟨req, member, same⟩)
  refine ⟨fun req member => listed (List.mem_append_left _ member), fun id req found => ?_⟩
  have entry : ⟨id, req⟩ ∈ before.run.queue.claimedItems.entries := AList.mem_lookup_iff.mp found
  exact listed (List.mem_append_right _ (List.mem_map.mpr ⟨_, entry, rfl⟩))

/-- A request of an agent that is past the cutoff. -/
private def waitingRequest : DecisionRequest where
  id := 7
  agentId := "cc-1"
  agentType := .claudeCode
  project := ⟨"/work"⟩
  toolName := "Bash"
  toolInput := .object []
  timestamp := 0

/-- Two agents are past the cutoff, and one of them waits for a decision. -/
private def untilReap : List ReapingEvent :=
  [.register "cc-1" .claudeCode ⟨"/work"⟩, .register "cc-2" .claudeCode ⟨"/work"⟩,
    .queue (.enqueue waitingRequest), .clock 10, .reap, .reap, .reap]

private def beforeReap : AgentReaping :=
  ((AgentReaping.machine 5).run Machine.free { timeout := 5 } untilReap).get (by decide +kernel)

theorem live_agents_kept_waiting :
    (∀ req ∈ beforeReap.run.queue.pendingItems, req.agentId ≠ "cc-2") ∧
      ∀ id req, beforeReap.run.queue.claimedItems.lookup id = some req → req.agentId ≠ "cc-2" :=
  live_agents_kept (Machine.Reachable.start.run (Option.some_get _).symm)
    (show beforeReap.step .reap = some beforeReap.advance from rfl) (by decide +kernel) (by decide +kernel)

end Wisphive
