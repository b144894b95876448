import Wisphive.Types
import Wisphive.Foundation.Trace

/-! The registry of managed agents and the process groups that they lead. A stop takes an agent
out of the registry and runs a ladder of signals, while the kernel goes on and other programs
start groups of their own. -/

namespace Wisphive
open Foundation

/-- The process that a group is named after. A zombie keeps the id of its group until its parent
has reaped it. -/
inductive Leader where
  | running
  | zombie (code : Option Int)
  | reaped
  deriving DecidableEq, Repr

/-- A process group with its leader and the number of its other members. -/
structure ProcessGroup where
  pgid : Int
  leader : Leader := .running
  others : Nat := 0
  deriving DecidableEq, Repr

namespace ProcessGroup

/-- Whether a member is left, be it a zombie. -/
def present (group : ProcessGroup) : Bool :=
  group.leader ≠ .reaped || 0 < group.others

/-- Whether a member is left that can still run code. -/
def live (group : ProcessGroup) : Bool :=
  group.leader = .running || 0 < group.others

def reap (group : ProcessGroup) : ProcessGroup :=
  { group with leader := .reaped }

end ProcessGroup

/-- A managed process. `group` is the place of its group among all that there ever were, and
`pgid` the number under which the group is signalled. -/
structure ManagedProcess where
  agentId : Uuid
  group : Nat
  pgid : Int
  deriving DecidableEq, Repr

/-- `STOP_TERM_GRACE` and `STOP_KILL_CONFIRM`, in milliseconds. -/
def stopTermGrace : Nat := 2000

def stopKillConfirm : Nat := 2000

/-- What the ladder does next. -/
inductive Rung where
  | terminate
  | arm
  | poll
  | probe
  | decide
  | killGroup (since : Nat)
  | killLeader (since : Nat)
  deriving DecidableEq, Repr

/-- A running `stop_managed`. -/
structure StopTask where
  process : ManagedProcess
  rung : Rung := .terminate
  exitCode : Option (Option Int) := none
  graceDeadline : Nat := 0
  killDeadline : Option Nat := none
  deriving DecidableEq, Repr

/-- What is seen of an agent, each with whether it is as it should be at that moment. -/
inductive Observation where
  /-- `SIGTERM` or `SIGKILL` for a group, and whether the group is there. -/
  | signalled (group : Nat) (present : Bool)
  /-- An agent is taken out of the registry to be stopped. -/
  | taken (agentId : Uuid) (gone : Bool)
  /-- An agent is reported stopped or exited, and nobody has it any more. -/
  | reported (agentId : Uuid) (code : Option Int) (gone : Bool)
  /-- A stop fails, and whether the agent can be stopped again. -/
  | stopFailed (agentId : Uuid) (listed : Bool)
  deriving DecidableEq, Repr

namespace Observation

def good : Observation → Bool
  | .signalled _ present => present
  | .taken _ gone => gone
  | .reported _ _ gone => gone
  | .stopFailed _ listed => listed

def isTaken : Observation → Bool
  | .taken .. => true
  | _ => false

end Observation

/-- The groups of the system in the order of their creation, the registry, the running stops and
the clock in milliseconds. -/
structure ProcessSystem where
  groups : List ProcessGroup
  processes : List ManagedProcess := []
  stops : List StopTask := []
  now : Nat := 0
  log : List Observation := []
  deriving DecidableEq, Repr

inductive ProcessEvent where
  /-- A spawn. It is aborted where the audited files changed while the child was started. -/
  | spawnAgent (agentId : Uuid) (pid : Nat) (aborted : Bool)
  | takeForStop (agentId : Uuid)
  | shutdownAll
  /-- A pass of the reaper. Some agents may fail to be polled. -/
  | reapExited (errors : List Uuid)
  /-- The next step of a stop. Its poll of the leader may fail. -/
  | advance (group : Nat) (error : Bool)
  | newGroup (pid : Nat)
  | fork (group : Nat)
  | memberGone (group : Nat)
  | leaderExit (group : Nat) (code : Option Int)
  /-- A leader that the registry and the stops do not have is reaped by its own parent. -/
  | reapLeader (group : Nat)
  | clock (now : Nat)
  deriving DecidableEq, Repr

namespace ProcessSystem

def present (system : ProcessSystem) (group : Nat) : Bool :=
  system.groups[group]?.any ProcessGroup.present

/-- Whether a group of this number is there. -/
def inUse (system : ProcessSystem) (pgid : Int) : Bool :=
  system.groups.any fun group => group.pgid = pgid && group.present

/-- `killpg(pgid, 0)` says that there is no such group. Numbers that no agent has are refused. -/
def processGroupGone (system : ProcessSystem) (pgid : Int) : Bool :=
  1 < pgid && !system.inUse pgid

/-- A signal to the group of a process. What it does to the members is left to the kernel. -/
def signalGroup (system : ProcessSystem) (process : ManagedProcess) : ProcessSystem :=
  { system with log := system.log ++ [.signalled process.group (system.present process.group)] }

/-- The exit status of a leader that has one. -/
def exitStatus (system : ProcessSystem) (group : Nat) : Option (Option Int) :=
  system.groups[group]?.bind fun found =>
    match found.leader with
    | .zombie code => some code
    | .running | .reaped => none

def held (system : ProcessSystem) (group : Nat) : Bool :=
  system.processes.any (·.group = group) || system.stops.any fun task => task.process.group = group && task.exitCode = none

/-- The kernel gives a new group a number that is not in use. -/
def spawnAgent (system : ProcessSystem) (agentId : Uuid) (pid : Nat) (aborted : Bool) : Option ProcessSystem :=
  if 1 < pid ∧ system.inUse pid = false ∧ ∀ process ∈ system.processes, process.agentId ≠ agentId then
    let process : ManagedProcess := { agentId, group := system.groups.length, pgid := pid }
    let spawned : ProcessSystem := { system with groups := system.groups ++ [{ pgid := pid }] }
    some (if aborted then spawned.signalGroup process else { spawned with processes := system.processes ++ [process] })
  else none

/-- Hand the chosen agents to their stops. -/
def take (system : ProcessSystem) (chosen : ManagedProcess → Bool) : ProcessSystem :=
  let procs := system.processes.filter chosen
  { system with
    processes := system.processes.filter (!chosen ·)
    stops := system.stops ++ procs.map fun process => { process }
    log := system.log ++ procs.map fun process => .taken process.agentId (!system.present process.group) }

/-- The agents whose leader a pass finds exited. -/
def exited (system : ProcessSystem) (errors : List Uuid) : List ManagedProcess :=
  system.processes.filter fun process => process.agentId ∉ errors && (system.exitStatus process.group).isSome

def reapLeaders (groups : List ProcessGroup) (chosen : Nat → Bool) : List ProcessGroup :=
  groups.mapIdx fun index group => if chosen index then group.reap else group

def reapExited (system : ProcessSystem) (errors : List Uuid) : ProcessSystem :=
  let exited := system.exited errors
  let reaped := { system with groups := reapLeaders system.groups fun index => exited.any (·.group = index) }
  { reaped with
    processes := system.processes.filter (· ∉ exited)
    log := system.log ++ exited.map fun process =>
      .reported process.agentId ((system.exitStatus process.group).getD none) (!reaped.present process.group) }

def setTask (system : ProcessSystem) (task : StopTask) : ProcessSystem :=
  { system with
    stops := system.stops.map fun other => if other.process.group = task.process.group then task else other }

def endTask (system : ProcessSystem) (task : StopTask) : ProcessSystem :=
  { system with stops := system.stops.filter (·.process.group ≠ task.process.group) }

/-- `try_wait` reaps the leader if it has exited. -/
def poll (system : ProcessSystem) (task : StopTask) (error : Bool) : ProcessSystem :=
  match task.exitCode, system.exitStatus task.process.group, error with
  | none, some code, false =>
    { system with groups := reapLeaders system.groups (· = task.process.group) }.setTask
      { task with rung := .probe, exitCode := some code }
  | _, _, _ => system.setTask { task with rung := .probe }

/-- One step of the ladder. The stop succeeds if its leader was reaped and its group is gone then,
and fails if the group is not gone in time after `SIGKILL`. -/
def climb (system : ProcessSystem) (task : StopTask) (error : Bool) : ProcessSystem :=
  match task.rung with
  | .terminate => (system.signalGroup task.process).setTask { task with rung := .arm }
  | .arm => system.setTask { task with rung := .poll, graceDeadline := system.now + stopTermGrace }
  | .poll => system.poll task error
  | .probe =>
    match task.exitCode with
    | some code =>
      if system.processGroupGone task.process.pgid then
        let ended := system.endTask task
        { ended with log := system.log ++ [.reported task.process.agentId code (!system.present task.process.group)] }
      else system.setTask { task with rung := .decide }
    | none => system.setTask { task with rung := .decide }
  | .decide =>
    match task.killDeadline with
    | none => system.setTask { task with rung := if task.graceDeadline ≤ system.now then .killGroup system.now else .poll }
    | some deadline =>
      if deadline ≤ system.now then
        let ended := system.endTask task
        { ended with log := system.log ++
            [.stopFailed task.process.agentId (ended.processes.any (·.group = task.process.group))] }
      else system.setTask { task with rung := .poll }
  | .killGroup since => (system.signalGroup task.process).setTask { task with rung := .killLeader since }
  | .killLeader since => system.setTask { task with rung := .poll, killDeadline := some (since + stopKillConfirm) }

/-- A group changes. -/
def modifyGroup (system : ProcessSystem) (group : Nat) (change : ProcessGroup → ProcessGroup) : ProcessSystem :=
  { system with groups := system.groups.modify group change }

def step (system : ProcessSystem) : ProcessEvent → Option ProcessSystem
  | .spawnAgent agentId pid aborted => system.spawnAgent agentId pid aborted
  | .takeForStop agentId => some (system.take (·.agentId = agentId))
  | .shutdownAll => some (system.take fun _ => true)
  | .reapExited errors => some (system.reapExited errors)
  | .advance group error =>
    (system.stops.find? (·.process.group = group)).map fun task => system.climb task error
  | .newGroup pid =>
    if 1 < pid ∧ system.inUse pid = false then some { system with groups := system.groups ++ [{ pgid := pid }] } else none
  | .fork group =>
    if system.groups[group]?.any ProcessGroup.live then
      some (system.modifyGroup group fun found => { found with others := found.others + 1 })
    else none
  | .memberGone group =>
    some (system.modifyGroup group fun found => { found with others := found.others - 1 })
  | .leaderExit group code =>
    if system.groups[group]?.any (·.leader = .running) then
      some (system.modifyGroup group fun found => { found with leader := .zombie code })
    else none
  | .reapLeader group =>
    if (system.exitStatus group).isSome ∧ system.held group = false then
      some (system.modifyGroup group ProcessGroup.reap)
    else none
  | .clock now => if system.now ≤ now then some { system with now } else none

/-- The registry is empty when the daemon starts. -/
def machine (groups : List ProcessGroup) : Machine ProcessSystem ProcessEvent where
  start := { groups }
  step := step

/-- A group is killed before it is gone, and the stop does not run out of time. -/
def inTime (system : ProcessSystem) (task : StopTask) : Bool :=
  match task.rung with
  | .killGroup _ => system.present task.process.group
  | .decide => task.killDeadline.all (system.now < ·)
  | _ => true

/-- A pass reaps no leader that leaves others behind, and the stops are in time. -/
def Confirms (system : ProcessSystem) : ProcessEvent → Prop
  | .reapExited errors => ∀ process ∈ system.exited errors, system.groups[process.group]?.all (·.others = 0) = true
  | .advance group _ => ∀ task ∈ system.stops, task.process.group = group → system.inTime task = true
  | _ => True

instance (system : ProcessSystem) : (event : ProcessEvent) → Decidable (Confirms system event)
  | .reapExited errors => inferInstanceAs (Decidable (∀ process ∈ system.exited errors, _))
  | .advance _ _ => inferInstanceAs (Decidable (∀ task ∈ system.stops, _))
  | .spawnAgent .. | .takeForStop _ | .shutdownAll | .newGroup _ | .fork _ | .memberGone _ | .leaderExit ..
  | .reapLeader _ | .clock _ => .isTrue trivial

/-- No managed agent is taken out of the registry to be stopped. -/
def Untaken (system : ProcessSystem) : ProcessEvent → Prop
  | .takeForStop agentId => ∀ process ∈ system.processes, process.agentId ≠ agentId
  | .shutdownAll => system.processes = []
  | _ => True

instance (system : ProcessSystem) : (event : ProcessEvent) → Decidable (Untaken system event)
  | .takeForStop agentId => inferInstanceAs (Decidable (∀ process ∈ system.processes, process.agentId ≠ agentId))
  | .shutdownAll => inferInstanceAs (Decidable (system.processes = []))
  | .spawnAgent .. | .reapExited _ | .advance .. | .newGroup _ | .fork _ | .memberGone _ | .leaderExit ..
  | .reapLeader _ | .clock _ => .isTrue trivial

/-- Both conditions. -/
def Strict (system : ProcessSystem) (event : ProcessEvent) : Prop :=
  Confirms system event ∧ Untaken system event

instance (system : ProcessSystem) (event : ProcessEvent) : Decidable (Strict system event) :=
  inferInstanceAs (Decidable (_ ∧ _))

end ProcessSystem
end Wisphive
