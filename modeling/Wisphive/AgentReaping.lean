import Wisphive.Queue

/-! The registry of connected agents and its reaper. The reaper holds the queue's lock
from before it collects the agents that have a live decision until after the registry
was reaped. The handlers hold one lock at a time, for one operation. -/

namespace Wisphive
open Foundation

structure AgentInfo where
  agentId : String
  agentType : AgentType
  project : PathBuf
  connectedAt : DateTime
  lastSeen : DateTime
  deriving DecidableEq, Repr

abbrev AgentRegistry := AList (fun _ : String => AgentInfo)

namespace AgentRegistry

/-- The agent, and whether it is new. One that is known is only touched. -/
def register (registry : AgentRegistry) (agentId : String) (agentType : AgentType) (project : PathBuf)
    (now : DateTime) : (AgentInfo × Bool) × AgentRegistry :=
  match registry.lookup agentId with
  | some info =>
    let seen := { info with lastSeen := now }
    ((seen, false), registry.insert agentId seen)
  | none =>
    let info := { agentId, agentType, project, connectedAt := now, lastSeen := now }
    ((info, true), registry.insert agentId info)

def touch (registry : AgentRegistry) (agentId : String) (now : DateTime) : AgentRegistry :=
  match registry.lookup agentId with
  | some info => registry.insert agentId { info with lastSeen := now }
  | none => registry

/-- `chrono::Duration::from_std`, and no duration at all where that is out of range. -/
def fromStd (timeout : Nat) : Int :=
  if timeout / 1000000 < 2 ^ 63 then timeout else 0

/-- The agents that are past the cutoff and not kept alive. -/
def expired (registry : AgentRegistry) (timeout : Nat) (keepAlive : List String) (now : DateTime) : List String :=
  let cutoff := now - fromStd timeout
  (registry.entries.filter fun entry => entry.2.lastSeen < cutoff ∧ entry.1 ∉ keepAlive).map (·.1)

def eraseEach (registry : AgentRegistry) : List String → AgentRegistry
  | [] => registry
  | agentId :: rest => eraseEach (registry.erase agentId) rest

def reapInactive (registry : AgentRegistry) (timeout : Nat) (keepAlive : List String) (now : DateTime) :
    List String × AgentRegistry :=
  let agents := registry.expired timeout keepAlive now
  (agents, registry.eraseEach agents)

end AgentRegistry

namespace DecisionQueue

/-- The agents of the pending and of the claimed requests. -/
def pendingAgentIds (queue : DecisionQueue) : List String :=
  (queue.pendingItems ++ queue.claimedItems.entries.map (·.2)).map (·.agentId)

end DecisionQueue

/-- How far `reap_inactive_agents` is. It holds the queue's lock except while it is idle
and while it announces what it reaped. -/
inductive Reaper where
  | idle
  | queueLocked
  | collected (keepAlive : List String)
  | registryLocked (keepAlive : List String)
  | reaped (agents : List String)
  | announcing (agents : List String)
  deriving DecidableEq, Repr

structure AgentReaping where
  run : QueueRun := {}
  registry : AgentRegistry := ∅
  wall : DateTime := 0
  timeout : Nat
  reaper : Reaper := .idle
  disconnected : List String := []
  deriving DecidableEq

inductive ReapingEvent where
  /-- An operation of a handler inside the queue's lock. -/
  | queue (operation : QueueOperation)
  /-- `register` or `touch` of a handler inside the registry's lock. -/
  | register (agentId : String) (agentType : AgentType) (project : PathBuf)
  | touch (agentId : String)
  | reap
  | clock (wall : DateTime)
  deriving DecidableEq

namespace AgentReaping

def queueFree (system : AgentReaping) : Bool :=
  match system.reaper with
  | .idle | .announcing _ => true
  | .queueLocked | .collected _ | .registryLocked _ | .reaped _ => false

def registryFree (system : AgentReaping) : Bool :=
  match system.reaper with
  | .registryLocked _ => false
  | _ => true

/-- The reaper's next step. A handler that holds a lock lets go of it within its own
step, so the reaper never waits. -/
def advance (system : AgentReaping) : AgentReaping :=
  match system.reaper with
  | .idle => { system with reaper := .queueLocked }
  | .queueLocked => { system with reaper := .collected system.run.queue.pendingAgentIds }
  | .collected keepAlive => { system with reaper := .registryLocked keepAlive }
  | .registryLocked keepAlive =>
    let (agents, registry) := system.registry.reapInactive system.timeout keepAlive system.wall
    { system with registry, reaper := .reaped agents }
  | .reaped agents => { system with reaper := .announcing agents }
  | .announcing [] => { system with reaper := .idle }
  | .announcing (agentId :: rest) =>
    { system with reaper := .announcing rest, disconnected := system.disconnected ++ [agentId] }

def step (system : AgentReaping) : ReapingEvent → Option AgentReaping
  | .queue operation =>
    if system.queueFree then (system.run.step operation).map fun run => { system with run } else none
  | .register agentId agentType project =>
    if system.registryFree then
      some { system with registry := (system.registry.register agentId agentType project system.wall).2 }
    else none
  | .touch agentId =>
    if system.registryFree then some { system with registry := system.registry.touch agentId system.wall } else none
  | .reap => some system.advance
  | .clock wall => some { system with wall }

def machine (timeout : Nat) : Machine AgentReaping ReapingEvent where
  start := { timeout }
  step := step

end AgentReaping
end Wisphive
