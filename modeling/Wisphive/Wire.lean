import Wisphive.Types

/-! The messages that clients and the daemon exchange. Of the messages that only
terminals, queries and process control use, the kind alone is kept. -/

namespace Wisphive
open Foundation

/-- Stable identifier for an authenticated web device. -/
structure DeviceId where
  text : String
  deriving DecidableEq, Repr

inductive ClientType where
  | hook
  | tui
  deriving DecidableEq, Repr

inductive ClientMessage where
  | hello (client : ClientType) (version : Nat)
  | decisionRequest (req : DecisionRequest)
  | approve (id : Uuid) (message : Option String) (updatedInput : Option Json) (alwaysAllow : Bool)
      (additionalContext : Option String)
  | deny (id : Uuid) (message : Option String)
  | ask (id : Uuid)
  | approveAll (filter : Option DecisionFilter) (confirm : Bool)
  | denyAll (filter : Option DecisionFilter)
  | spawnAgent (req : SpawnAgentRequest)
  | listAgents
  | stopAgent
  | queryHistory
  | toolResult
  | searchHistory
  | querySessions
  | queryProjects
  | queryWorktrees
  | queryBurn
  | installHooks (project : PathBuf)
  | queryProjectHookStatus
  | agentRegister
  | reimportEvents
  | approvePermission (id : Uuid) (suggestionIndex : Nat) (message : Option String)
  | termCreate
  | termAttach
  | termDetach
  | termInput
  | termResize
  | termClose
  | termList
  | termReplay
  | termSetGroup
  | termReorder
  | termSetPinned
  | markDeviceFresh
  deriving DecidableEq, Repr

/-- The `type` tag on the wire. -/
def ClientMessage.tag : ClientMessage → String
  | .hello .. => "hello"
  | .decisionRequest .. => "decision_request"
  | .approve .. => "approve"
  | .deny .. => "deny"
  | .ask .. => "ask"
  | .approveAll .. => "approve_all"
  | .denyAll .. => "deny_all"
  | .spawnAgent .. => "spawn_agent"
  | .listAgents => "list_agents"
  | .stopAgent => "stop_agent"
  | .queryHistory => "query_history"
  | .toolResult => "tool_result"
  | .searchHistory => "search_history"
  | .querySessions => "query_sessions"
  | .queryProjects => "query_projects"
  | .queryWorktrees => "query_worktrees"
  | .queryBurn => "query_burn"
  | .installHooks .. => "install_hooks"
  | .queryProjectHookStatus => "query_project_hook_status"
  | .agentRegister => "agent_register"
  | .reimportEvents => "reimport_events"
  | .approvePermission .. => "approve_permission"
  | .termCreate => "term_create"
  | .termAttach => "term_attach"
  | .termDetach => "term_detach"
  | .termInput => "term_input"
  | .termResize => "term_resize"
  | .termClose => "term_close"
  | .termList => "term_list"
  | .termReplay => "term_replay"
  | .termSetGroup => "term_set_group"
  | .termReorder => "term_reorder"
  | .termSetPinned => "term_set_pinned"
  | .markDeviceFresh => "mark_device_fresh"

/-- The tag alone tells a `mark_device_fresh`. -/
theorem ClientMessage.markDeviceFresh_of_tag {body : ClientMessage} (same : body.tag = "mark_device_fresh") :
    body = .markDeviceFresh := by
  cases body with
  | markDeviceFresh => rfl
  | _ =>
    simp only [tag] at same
    exact absurd same (by decide)

/-- A message with the context of the connection that it came over. -/
structure ClientCommand where
  body : ClientMessage
  deviceId : Option DeviceId := none
  correlationId : Option String := none
  deriving DecidableEq, Repr

inductive ServerMessage where
  | welcome (version : Nat)
  | decisionResponse (id : Uuid) (decision : Decision) (message : Option String) (updatedInput : Option Json)
      (additionalContext : Option String) (selectedPermission : Option PermissionSuggestion)
  | webReauthRequired (deviceId requestId toolName : String)
  | markDeviceFreshAck (deviceId : String)
  | agentSpawnQueued (decision : DecisionRequest) (correlationId : Option String)
  | commandError (message : String) (correlationId : Option String)
  | error (message : String)
  | overloaded (message : String)
  | other
  deriving DecidableEq, Repr

/-- 8 MiB. -/
def maxLineBytes : Nat := 8 * 1024 * 1024

/-! ### The sudo gate -/

/-- Nanoseconds of the monotonic clock. -/
abbrev Instant := Nat

def sudoTools : List String :=
  ["Bash", "Write", "Edit", "MultiEdit", "NotebookEdit", "ConfigChange", "SpawnAgent"]

/-- Five minutes. -/
def reauthTtl : Nat := 5 * 60 * 1000000000

def isSudoTool (toolName : String) : Bool :=
  toolName ∈ sudoTools

/-- When each device last entered its password, as far as it is remembered. -/
structure ReauthRegistry where
  inner : DeviceId → Option Instant := fun _ => none
  ttl : Nat := reauthTtl

namespace ReauthRegistry

/-- Entries that have run out are forgotten before the new one is stored. -/
def touch (registry : ReauthRegistry) (deviceId : DeviceId) (now : Instant) : ReauthRegistry :=
  { registry with
    inner := fun device =>
      if device = deviceId then some now
      else (registry.inner device).filter fun stamp => now - stamp < registry.ttl }

/-- A stale entry is removed on the way. -/
def isFresh (registry : ReauthRegistry) (deviceId : DeviceId) (now : Instant) : Bool × ReauthRegistry :=
  match registry.inner deviceId with
  | some stamp =>
    if now - stamp < registry.ttl then (true, registry)
    else (false, { registry with inner := fun device => if device = deviceId then none else registry.inner device })
  | none => (false, registry)

theorem isFresh_of_true {registry : ReauthRegistry} {deviceId : DeviceId} {now : Instant}
    (fresh : (registry.isFresh deviceId now).1 = true) :
    ∃ stamp, registry.inner deviceId = some stamp ∧ now - stamp < registry.ttl := by
  unfold isFresh at fresh
  cases found : registry.inner deviceId with
  | none => simp only [found, Bool.false_eq_true] at fresh
  | some stamp =>
    refine ⟨stamp, rfl, ?_⟩
    by_contra stale
    simp only [found, stale, if_false, Bool.false_eq_true] at fresh

/-- Looking never adds an entry, nor does it change the lifetime. -/
theorem isFresh_inner {registry : ReauthRegistry} {deviceId device : DeviceId} {now stamp : Instant}
    (found : (registry.isFresh deviceId now).2.inner device = some stamp) :
    registry.inner device = some stamp := by
  unfold isFresh at found
  split at found
  · split at found
    · exact found
    · simp only at found
      split at found
      · cases found
      · exact found
  · exact found

theorem isFresh_ttl (registry : ReauthRegistry) (deviceId : DeviceId) (now : Instant) :
    (registry.isFresh deviceId now).2.ttl = registry.ttl := by
  unfold isFresh
  split
  · split <;> rfl
  · rfl

theorem touch_inner {registry : ReauthRegistry} {deviceId device : DeviceId} {now stamp : Instant}
    (found : (registry.touch deviceId now).inner device = some stamp) :
    device = deviceId ∧ stamp = now ∨ registry.inner device = some stamp := by
  simp only [touch] at found
  split at found
  next same =>
    cases found
    exact .inl ⟨same, rfl⟩
  next => exact .inr (Option.mem_filter_iff.mp found).1

end ReauthRegistry

end Wisphive
