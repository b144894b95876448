import Mathlib.Data.Finset.Card
import Mathlib.Data.List.AList
import Wisphive.Foundation.Trace
import Wisphive.Types

/-! The decision queue: requests waiting for a human, requests claimed for
durable resolution, and the channels over which answers and broadcasts leave. -/

namespace Wisphive
open Foundation

/-- A oneshot channel, named by the order of creation. -/
abbrev Channel := Nat

/-- What leaves the queue. A `NewDecision` broadcast is tagged with the channel
that the accepted request waits on. -/
inductive Output where
  | newDecision (channel : Channel) (req : DecisionRequest)
  | decisionResolved (id : Uuid) (decision : Decision)
  | sent (channel : Channel) (rich : RichDecision)
  | senderDropped (channel : Channel)
  deriving DecidableEq, Repr

/-- The oneshot channels and everything that left the queue, newest first. -/
structure Channels where
  next : Channel := 0
  receivers : Finset Channel := ∅
  outputs : List Output := []
  deriving DecidableEq

namespace Channels

/-- `oneshot::channel`: a sender and a receiver that is alive. -/
def oneshot (channels : Channels) : Channels :=
  { channels with next := channels.next + 1, receivers := insert channels.next channels.receivers }

def emit (channels : Channels) (output : Output) : Channels :=
  { channels with outputs := output :: channels.outputs }

/-- `Sender::send` succeeds while the receiver is alive. -/
def send (channels : Channels) (channel : Channel) (rich : RichDecision) : Bool × Channels :=
  (channel ∈ channels.receivers, channels.emit (.sent channel rich))

def dropSender (channels : Channels) (channel : Channel) : Channels :=
  channels.emit (.senderDropped channel)

def dropReceiver (channels : Channels) (channel : Channel) : Channels :=
  { channels with receivers := channels.receivers.erase channel }

end Channels

/-- The four collections of the queue, and the channels it writes to. -/
structure DecisionQueue where
  pendingSenders : AList (fun _ : Uuid => Channel) := ∅
  pendingItems : List DecisionRequest := []
  claimedItems : AList (fun _ : Uuid => DecisionRequest) := ∅
  managedSpawnIds : Finset Uuid := ∅
  channels : Channels := {}
  deriving DecidableEq

/-- A decision removed from the live queue but not yet released to its worker. -/
structure ClaimedDecision where
  request : DecisionRequest
  sender : Channel
  deriving DecidableEq, Repr

namespace DecisionQueue

def new : DecisionQueue := {}

def enqueueInner (queue : DecisionQueue) (req : DecisionRequest) (managedSpawn : Bool) :
    Option Channel × DecisionQueue :=
  if req.id ∈ queue.pendingSenders ∨ req.id ∈ queue.claimedItems ∨ req.id ∈ queue.managedSpawnIds then
    (none, queue)
  else
    let channel := queue.channels.next
    (some channel,
      { queue with
        pendingSenders := queue.pendingSenders.insert req.id channel
        pendingItems := queue.pendingItems ++ [req]
        managedSpawnIds := if managedSpawn then insert req.id queue.managedSpawnIds else queue.managedSpawnIds
        channels := queue.channels.oneshot.emit (.newDecision channel req) })

def enqueue (queue : DecisionQueue) (req : DecisionRequest) : Option Channel × DecisionQueue :=
  queue.enqueueInner req false

def enqueueManagedSpawn (queue : DecisionQueue) (req : DecisionRequest) : Option Channel × DecisionQueue :=
  queue.enqueueInner req true

/-- Remove a decision that was resolved outside the queue. Its sender is dropped
without an answer. -/
def finalizeLocal (queue : DecisionQueue) (id : Uuid) (decision : Decision) : Bool × DecisionQueue :=
  let sender := queue.pendingSenders.lookup id
  let items := queue.pendingItems.filter (·.id ≠ id)
  let hadClaim := (queue.claimedItems.lookup id).isSome
  let removed := sender.isSome || hadClaim || items.length ≠ queue.pendingItems.length
  let channels := match sender with
    | some channel => queue.channels.dropSender channel
    | none => queue.channels
  (removed,
    { pendingSenders := queue.pendingSenders.erase id
      pendingItems := items
      claimedItems := queue.claimedItems.erase id
      managedSpawnIds := queue.managedSpawnIds.erase id
      channels := if removed then channels.emit (.decisionResolved id decision) else channels })

/-- Remove a decision and its sender without resolving it. The id stays reserved
until the claim is completed. -/
def claim (queue : DecisionQueue) (id : Uuid) : Option ClaimedDecision × DecisionQueue :=
  match queue.pendingItems.find? (·.id = id) with
  | none => (none, queue)
  | some request =>
    match queue.pendingSenders.lookup id with
    | none => (none, queue)
    | some sender =>
      (some { request, sender },
        { queue with
          pendingSenders := queue.pendingSenders.erase id
          pendingItems := queue.pendingItems.eraseP (·.id = id)
          claimedItems := queue.claimedItems.insert id request })

/-- Release a claimed decision. A claim whose entry is gone drops its sender. -/
def completeClaim (queue : DecisionQueue) (claim : ClaimedDecision) (rich : RichDecision) :
    Bool × DecisionQueue :=
  let id := claim.request.id
  if id ∉ queue.claimedItems then
    (false, { queue with channels := queue.channels.dropSender claim.sender })
  else
    let resolved := queue.channels.emit (.decisionResolved id rich.decision)
    let (delivered, channels) := resolved.send claim.sender rich
    (delivered,
      { queue with
        claimedItems := queue.claimedItems.erase id
        managedSpawnIds := queue.managedSpawnIds.erase id
        channels })

def resolve (queue : DecisionQueue) (id : Uuid) (rich : RichDecision) : Bool × DecisionQueue :=
  if id ∈ queue.managedSpawnIds then (false, queue)
  else
    match queue.pendingSenders.lookup id with
    | none => (false, queue)
    | some sender =>
      let resolved := queue.channels.emit (.decisionResolved id rich.decision)
      (true,
        { queue with
          pendingSenders := queue.pendingSenders.erase id
          pendingItems := queue.pendingItems.filter (·.id ≠ id)
          managedSpawnIds := queue.managedSpawnIds.erase id
          channels := (resolved.send sender rich).2 })

/-- The ids that a bulk command acts on. Managed spawns are left out. -/
def bulkIds (queue : DecisionQueue) (filter : Option DecisionFilter) : List Uuid :=
  ((queue.pendingItems.filter fun req => filter.all (·.matchesRequest req)).filter
    (·.id ∉ queue.managedSpawnIds)).map (·.id)

def resolveEach (queue : DecisionQueue) (rich : RichDecision) : List Uuid → DecisionQueue
  | [] => queue
  | id :: rest => (queue.resolve id rich).2.resolveEach rich rest

def resolveAll (queue : DecisionQueue) (filter : Option DecisionFilter) (decision : Decision)
    (resolver : Option String) : List Uuid × DecisionQueue :=
  let ids := queue.bulkIds filter
  (ids, queue.resolveEach { RichDecision.ofDecision decision with resolver } ids)

/-- Pending items first, then claimed items in no particular order. -/
def snapshot (queue : DecisionQueue) : List DecisionRequest :=
  queue.pendingItems ++ queue.claimedItems.entries.map (·.2)

def peek (queue : DecisionQueue) (id : Uuid) : Option DecisionRequest :=
  queue.pendingItems.find? (·.id = id)

def managedSpawnCount (queue : DecisionQueue) : Nat :=
  queue.managedSpawnIds.card

def isManagedSpawn (queue : DecisionQueue) (id : Uuid) : Bool :=
  id ∈ queue.managedSpawnIds

end DecisionQueue

/-! ### Runs of the queue -/

namespace Output

/-- The accepted requests with their channels, in enqueue order. -/
def announcements : List Output → List (Channel × DecisionRequest)
  | [] => []
  | .newDecision channel req :: rest => announcements rest ++ [(channel, req)]
  | _ :: rest => announcements rest

/-- The channel of the newest accepted request under an id. -/
def owner (id : Uuid) : List Output → Option Channel
  | [] => none
  | .newDecision channel req :: rest => if req.id = id then some channel else owner id rest
  | _ :: rest => owner id rest

/-- The decisions sent on a channel, newest first. -/
def sentTo (channel : Channel) : List Output → List RichDecision
  | [] => []
  | .sent target rich :: rest =>
    if target = channel then rich :: sentTo channel rest else sentTo channel rest
  | _ :: rest => sentTo channel rest

/-- The `DecisionResolved` broadcasts about the request behind a channel. -/
def resolvedFor (channel : Channel) : List Output → List Decision
  | [] => []
  | .decisionResolved id decision :: rest =>
    if owner id rest = some channel then decision :: resolvedFor channel rest else resolvedFor channel rest
  | _ :: rest => resolvedFor channel rest

end Output

/-- The queue, the claims that are still held, and the requests that `enqueue`
has accepted so far. -/
structure QueueRun where
  queue : DecisionQueue := .new
  claims : List ClaimedDecision := []
  accepted : List (Channel × DecisionRequest) := []
  deriving DecidableEq

/-- The mutating operations, and the ways a claim or a receiver can be dropped.
A held claim is named by its position and is used up by its completion. -/
inductive QueueOperation where
  | enqueue (req : DecisionRequest)
  | enqueueManagedSpawn (req : DecisionRequest)
  | resolve (id : Uuid) (rich : RichDecision)
  | resolveAll (filter : Option DecisionFilter) (decision : Decision) (resolver : Option String)
  | claim (id : Uuid)
  | completeClaim (position : Nat) (rich : RichDecision)
  | finalizeLocal (id : Uuid) (decision : Decision)
  | dropClaim (position : Nat)
  | dropReceiver (channel : Channel)
  deriving DecidableEq, Repr

namespace QueueRun

/-- Record a request that was accepted. -/
def enqueued (run : QueueRun) (req : DecisionRequest) (result : Option Channel × DecisionQueue) : QueueRun :=
  { run with
    queue := result.2
    accepted := match result.1 with
      | some channel => run.accepted ++ [(channel, req)]
      | none => run.accepted }

def step (run : QueueRun) : QueueOperation → Option QueueRun
  | .enqueue req => some (run.enqueued req (run.queue.enqueue req))
  | .enqueueManagedSpawn req => some (run.enqueued req (run.queue.enqueueManagedSpawn req))
  | .resolve id rich => some { run with queue := (run.queue.resolve id rich).2 }
  | .resolveAll filter decision resolver =>
    some { run with queue := (run.queue.resolveAll filter decision resolver).2 }
  | .claim id =>
    let (claimed, queue) := run.queue.claim id
    some { run with queue, claims := run.claims ++ claimed.toList }
  | .completeClaim position rich =>
    run.claims[position]?.map fun claim =>
      { run with
        queue := (run.queue.completeClaim claim rich).2
        claims := run.claims.eraseIdx position }
  | .finalizeLocal id decision => some { run with queue := (run.queue.finalizeLocal id decision).2 }
  | .dropClaim position =>
    run.claims[position]?.map fun claim =>
      { run with
        queue := { run.queue with channels := run.queue.channels.dropSender claim.sender }
        claims := run.claims.eraseIdx position }
  | .dropReceiver channel =>
    some { run with queue := { run.queue with channels := run.queue.channels.dropReceiver channel } }

def machine : Machine QueueRun QueueOperation where
  start := {}
  step := step

/-- The id of a claim still names the request that was claimed: whenever an entry
is claimed under that id, no newer request has been accepted under it. -/
def Current (run : QueueRun) (claim : ClaimedDecision) : Prop :=
  claim.request.id ∈ run.queue.claimedItems →
    Output.owner claim.request.id run.queue.channels.outputs = some claim.sender

/-- A completed claim is current. Every other operation is unrestricted. -/
def Meets (run : QueueRun) : QueueOperation → Prop
  | .completeClaim position _ => ∀ claim ∈ run.claims[position]?, run.Current claim
  | _ => True

instance (run : QueueRun) (claim : ClaimedDecision) : Decidable (run.Current claim) :=
  inferInstanceAs (Decidable (_ → _))

instance (run : QueueRun) (operation : QueueOperation) : Decidable (run.Meets operation) := by
  cases operation
  case completeClaim position _ => exact inferInstanceAs (Decidable (∀ claim ∈ run.claims[position]?, _))
  all_goals exact .isTrue trivial

end QueueRun

/-- What the clients of one accepted request have been told. -/
structure Answered (outputs : List Output) (channel : Channel) (req : DecisionRequest) : Prop where
  announced : (Output.announcements outputs).filter (·.1 = channel) = [(channel, req)]
  sent : (Output.sentTo channel outputs).length ≤ 1
  resolved : (Output.resolvedFor channel outputs).length ≤ 1
  agree : ∀ rich ∈ Output.sentTo channel outputs, ∀ decision ∈ Output.resolvedFor channel outputs,
    decision = rich.decision

/-- A managed spawn keeps its item, its sender and its claim, and nothing is
broadcast or sent about it. -/
structure Keeps (id : Uuid) (before after : DecisionQueue) : Prop where
  managed : id ∈ after.managedSpawnIds
  item : after.pendingItems.filter (·.id = id) = before.pendingItems.filter (·.id = id)
  sender : after.pendingSenders.lookup id = before.pendingSenders.lookup id
  claimed : after.claimedItems.lookup id = before.claimedItems.lookup id
  quiet : ∀ channel, Output.owner id before.channels.outputs = some channel →
    Output.sentTo channel after.channels.outputs = Output.sentTo channel before.channels.outputs ∧
    Output.resolvedFor channel after.channels.outputs = Output.resolvedFor channel before.channels.outputs

/-- The queue's collections agree, every accepted request is answered at most
once, and the generic paths leave managed spawns alone. -/
structure QueueRun.Consistent (run : QueueRun) : Prop where
  distinct : (run.queue.snapshot.map (·.id)).Nodup
  senders : ∀ id, id ∈ run.queue.pendingSenders ↔ id ∈ run.queue.pendingItems.map (·.id)
  managed : ∀ id ∈ run.queue.managedSpawnIds, id ∈ run.queue.snapshot.map (·.id)
  ordered : run.queue.pendingItems.Sublist (run.accepted.map (·.2))
  answered : ∀ entry ∈ run.accepted, Answered run.queue.channels.outputs entry.1 entry.2
  resolveKeeps : ∀ id rich, ∀ spawn ∈ run.queue.managedSpawnIds,
    Keeps spawn run.queue (run.queue.resolve id rich).2
  resolveAllKeeps : ∀ filter decision resolver, ∀ spawn ∈ run.queue.managedSpawnIds,
    Keeps spawn run.queue (run.queue.resolveAll filter decision resolver).2

end Wisphive
