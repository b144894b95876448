import Wisphive.AgentReaping
import Wisphive.Foundation.Presence
import Wisphive.Foundation.Subscription

/-! What a client of the daemon sees: the snapshots of its connection, the broadcasts that
it is forwarded, and how the terminal UI and the web page fold them into their state. -/

namespace Wisphive
open Foundation

/-- The messages that a client's queue and its agents are made of. -/
inductive FeedMessage where
  | agentsSnapshot (agents : List AgentInfo)
  | queueSnapshot (items : List DecisionRequest)
  | newDecision (req : DecisionRequest)
  | decisionResolved (id : Uuid)
  | agentConnected (info : AgentInfo)
  | agentDisconnected (agentId : String)
  | agentExited (agentId : String)
  /-- Alerts, audit rows, terminals and the rest. -/
  | other
  deriving DecidableEq, Repr

structure ClientView where
  queue : List DecisionRequest := []
  agents : List AgentInfo := []
  deriving DecidableEq, Repr

inductive ClientKind where
  | tui
  | web
  deriving DecidableEq, Repr

namespace ClientView

/-- The daemon messages of `run_loop`. -/
def receiveTui (view : ClientView) : FeedMessage → ClientView
  | .agentsSnapshot agents => { view with agents }
  | .queueSnapshot items => { view with queue := items }
  | .newDecision req => { view with queue := view.queue ++ [req] }
  | .decisionResolved id => { view with queue := view.queue.filter (·.id ≠ id) }
  | .agentConnected info => { view with agents := view.agents ++ [info] }
  | .agentDisconnected agentId => { view with agents := view.agents.filter (·.agentId ≠ agentId) }
  | .agentExited agentId => { view with agents := view.agents.filter (·.agentId ≠ agentId) }
  | .other => view

/-- The reducer of the web page. It keeps managed agents apart from the others. -/
def handleMessage (view : ClientView) : FeedMessage → ClientView
  | .agentsSnapshot agents => { view with agents }
  | .queueSnapshot items => { view with queue := items }
  | .newDecision req => { view with queue := view.queue ++ [req] }
  | .decisionResolved id => { view with queue := view.queue.filter (·.id ≠ id) }
  | .agentConnected info => { view with agents := view.agents ++ [info] }
  | .agentDisconnected agentId => { view with agents := view.agents.filter (·.agentId ≠ agentId) }
  | .agentExited _ | .other => view

def receive (view : ClientView) : ClientKind → FeedMessage → ClientView
  | .tui => view.receiveTui
  | .web => view.handleMessage

end ClientView

/-- How far `handle_tui` is with a connection. -/
inductive ConnectStage where
  | accepted
  | subscribed
  | agentsSent
  | live
  deriving DecidableEq, Repr

/-- The daemon and one of its clients. -/
structure ClientFeed where
  kind : ClientKind := .tui
  run : QueueRun := {}
  registry : AgentRegistry := ∅
  wall : DateTime := 0
  /-- What the tasks that changed the registry have still to broadcast, oldest task first. -/
  announcing : List (List FeedMessage) := []
  stage : ConnectStage := .accepted
  subscription : Subscription FeedMessage := {}
  socket : List FeedMessage := []
  view : ClientView := {}
  deriving DecidableEq

inductive FeedEvent where
  | queue (operation : QueueOperation)
  | register (agentId : String) (agentType : AgentType) (project : PathBuf)
  | touch (agentId : String)
  | reap (timeout : Nat)
  | clock (wall : DateTime)
  /-- A task broadcasts the next of its announcements. -/
  | announce (position : Nat)
  /-- A managed process was reaped. -/
  | exited (agentId : String)
  /-- Any other broadcast. -/
  | publish
  | subscribe
  | writeAgents
  | writeQueue
  | forward
  | receive
  deriving DecidableEq, Repr

/-- The capacity of `tui_tx`. -/
def broadcastCapacity : Nat := 256

def Output.broadcast : Output → Option FeedMessage
  | .newDecision _ req => some (.newDecision req)
  | .decisionResolved id _ => some (.decisionResolved id)
  | .sent _ _ | .senderDropped _ => none

/-- The broadcasts of an operation, oldest first. -/
def DecisionQueue.broadcasts (before after : DecisionQueue) : List FeedMessage :=
  (after.channels.outputs.take (after.channels.outputs.length - before.channels.outputs.length)).reverse.filterMap
    Output.broadcast

namespace AgentRegistry

/-- The agents, in no particular order. -/
def snapshot (registry : AgentRegistry) : List AgentInfo :=
  registry.entries.map (·.2)

end AgentRegistry

namespace ClientFeed

/-- The channel keeps nothing for a client that has not subscribed. -/
def broadcast (feed : ClientFeed) (messages : List FeedMessage) : ClientFeed :=
  if feed.stage = .accepted then feed
  else { feed with subscription := feed.subscription.sendEach broadcastCapacity messages }

/-- An operation inside the queue's lock, with what it broadcasts. -/
def operate (feed : ClientFeed) (run : QueueRun) : ClientFeed :=
  { feed with run }.broadcast (feed.run.queue.broadcasts run.queue)

def announced (feed : ClientFeed) (position : Nat) : Option (FeedMessage × ClientFeed) :=
  match feed.announcing[position]? with
  | some (message :: rest) => some (message, { feed with announcing := feed.announcing.set position rest })
  | some [] | none => none

def step (feed : ClientFeed) : FeedEvent → Option ClientFeed
  | .queue operation => (feed.run.step operation).map feed.operate
  | .register agentId agentType project =>
    let ((info, isNew), registry) := feed.registry.register agentId agentType project feed.wall
    let announcing := if isNew then feed.announcing ++ [[.agentConnected info]] else feed.announcing
    some { feed with registry, announcing }
  | .touch agentId => some { feed with registry := feed.registry.touch agentId feed.wall }
  | .reap timeout =>
    let (agents, registry) := feed.registry.reapInactive timeout feed.run.queue.pendingAgentIds feed.wall
    some { feed with registry, announcing := feed.announcing ++ [agents.map .agentDisconnected] }
  | .clock wall => some { feed with wall }
  | .announce position => (feed.announced position).map fun (message, feed) => feed.broadcast [message]
  | .exited agentId => some (feed.broadcast [.agentExited agentId])
  | .publish => some (feed.broadcast [.other])
  | .subscribe => if feed.stage = .accepted then some { feed with stage := .subscribed } else none
  | .writeAgents =>
    if feed.stage = .subscribed then
      some { feed with stage := .agentsSent, socket := [.agentsSnapshot feed.registry.snapshot] }
    else none
  | .writeQueue =>
    if feed.stage = .agentsSent then
      some { feed with stage := .live, socket := feed.socket ++ [.queueSnapshot feed.run.queue.snapshot] }
    else none
  | .forward =>
    if feed.stage = .live then
      feed.subscription.receive.map fun
        | (.message message, subscription) => { feed with subscription, socket := feed.socket ++ [message] }
        | (.lagged _, subscription) => { feed with subscription }
    else none
  | .receive =>
    match feed.socket with
    | [] => none
    | message :: rest => some { feed with socket := rest, view := feed.view.receive feed.kind message }

def machine (kind : ClientKind) : Machine ClientFeed FeedEvent where
  start := { kind }
  step := step

/-- What a message tells the client about an id of the queue. -/
def aboutId (id : Uuid) : FeedMessage → Option Report
  | .newDecision req => if req.id = id then some .joined else none
  | .decisionResolved resolved => if resolved = id then some .left else none
  | _ => none

/-- What a message tells the client about an agent. -/
def aboutAgent (kind : ClientKind) (agentId : String) : FeedMessage → Option Report
  | .agentConnected info => if info.agentId = agentId then some .joined else none
  | .agentDisconnected disconnected => if disconnected = agentId then some .left else none
  | .agentExited exited => if kind = .tui ∧ exited = agentId then some .left else none
  | _ => none

/-- The agent that a message is about. -/
def agentOf : FeedMessage → Option String
  | .agentConnected info => some info.agentId
  | .agentDisconnected agentId | .agentExited agentId => some agentId
  | _ => none

/-- The broadcasts that the client is still to be forwarded, in order. -/
def stream (feed : ClientFeed) : List FeedMessage :=
  feed.subscription.unread ++ feed.announcing.flatten

/-- What the client misses when the messages are broadcast. -/
def lost (feed : ClientFeed) (messages : List FeedMessage) : List FeedMessage :=
  if feed.stage = .accepted then [] else feed.subscription.overwritten broadcastCapacity messages

/-- A message that adds to a snapshot which is already written. -/
def matters (feed : ClientFeed) : FeedMessage → Bool
  | .newDecision _ | .decisionResolved _ => feed.stage = .live
  | .agentConnected _ | .agentDisconnected _ => feed.stage = .agentsSent ∨ feed.stage = .live
  | .agentExited _ => feed.kind = .tui ∧ (feed.stage = .agentsSent ∨ feed.stage = .live)
  | .agentsSnapshot _ | .queueSnapshot _ | .other => false

def Heard (feed : ClientFeed) (messages : List FeedMessage) : Prop :=
  ∀ message ∈ feed.lost messages, feed.matters message = false

/-- The client keeps up. No broadcast that counts is overwritten, announcements about one
agent leave in the order of the changes that they announce, no snapshot shows what is only
about to join, and no managed process ends while an agent of its name stays registered. -/
def InStep (feed : ClientFeed) : FeedEvent → Prop
  | .queue operation =>
    ∀ run ∈ feed.run.step operation, feed.Heard (feed.run.queue.broadcasts run.queue)
  | .announce position =>
    ∀ announced ∈ feed.announced position, feed.Heard [announced.1] ∧
      ∀ earlier ∈ (feed.announcing.take position).flatten, agentOf earlier ≠ agentOf announced.1
  | .exited agentId =>
    feed.Heard [.agentExited agentId] ∧
      (feed.kind = .tui → feed.stage ≠ .accepted → agentId ∈ feed.registry →
        .joined ∈ feed.announcing.flatten.filterMap (aboutAgent feed.kind agentId))
  | .publish => feed.Heard [.other]
  | .writeAgents =>
    ∀ agentId ∈ feed.registry.keys, Presence.Leaves (feed.stream.filterMap (aboutAgent feed.kind agentId))
  | .writeQueue =>
    ∀ req ∈ feed.run.queue.snapshot, Presence.Leaves (feed.stream.filterMap (aboutId req.id))
  | _ => True

/-- The client has processed everything that was sent to it, and no change of the registry
is still to be announced. -/
def Processed (feed : ClientFeed) : Prop :=
  feed.stage = .live ∧ feed.socket = [] ∧ feed.subscription.unread = [] ∧ feed.announcing.flatten = []

/-- Its queue holds the live ids and its agents are the registered ones, each once. -/
structure Mirrors (feed : ClientFeed) : Prop where
  queue : (feed.view.queue.map (·.id)).Nodup ∧
    ∀ id, id ∈ feed.view.queue.map (·.id) ↔ id ∈ feed.run.queue.snapshot.map (·.id)
  agents : (feed.view.agents.map (·.agentId)).Nodup ∧
    ∀ agentId, agentId ∈ feed.view.agents.map (·.agentId) ↔ agentId ∈ feed.registry

instance (feed : ClientFeed) : Decidable feed.Processed :=
  inferInstanceAs (Decidable (_ ∧ _ ∧ _ ∧ _))

instance (feed : ClientFeed) (messages : List FeedMessage) : Decidable (feed.Heard messages) :=
  inferInstanceAs (Decidable (∀ message ∈ feed.lost messages, _))

instance (feed : ClientFeed) : (event : FeedEvent) → Decidable (feed.InStep event)
  | .queue operation => inferInstanceAs (Decidable (∀ run ∈ feed.run.step operation, _))
  | .announce position => inferInstanceAs (Decidable (∀ announced ∈ feed.announced position, _ ∧ _))
  | .exited _ => inferInstanceAs (Decidable (_ ∧ _))
  | .publish => inferInstanceAs (Decidable (feed.Heard _))
  | .writeAgents => inferInstanceAs (Decidable
      (∀ agentId ∈ feed.registry.keys, Presence.Leaves (feed.stream.filterMap (aboutAgent feed.kind agentId))))
  | .writeQueue => inferInstanceAs (Decidable
      (∀ req ∈ feed.run.queue.snapshot, Presence.Leaves (feed.stream.filterMap (aboutId req.id))))
  | .register .. | .touch _ | .reap _ | .clock _ | .subscribe | .forward | .receive => .isTrue trivial

end ClientFeed
end Wisphive
