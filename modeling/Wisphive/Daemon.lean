import Wisphive.Database
import Wisphive.Foundation.Program
import Wisphive.Queue
import Wisphive.Wire

/-! The steps of which the daemon's handlers consist: one critical section of the
queue's lock, one statement of the database, one look at the reauth registry, one
wait. What a handler computes between two of them nobody else can see. -/

namespace Wisphive
open Foundation

/-- A statement or transaction on the decision tables. -/
inductive Statement where
  | persistPending (req : DecisionRequest)
  | selectPending (id : Uuid)
  | insertResolved (row : PendingRow) (decision : Decision) (decidedBy : String)
  | deletePending (id : Uuid)
  | pendingIsManagedSpawn (id : Uuid)
  | deleteManagedSpawnPending (id : Uuid)
  | resolveSpawnPendingBy (id : Uuid) (reviewed : SpawnAgentRequest) (decidedBy : String)
  | forceFailclosedSpawnResolution (id : Uuid) (decidedBy : String) (fallback : DecisionRequest)
  | recordSpawnActionFailure (id : Uuid) (error : String)
  deriving DecidableEq

namespace Statement

@[reducible] def Reply : Statement → Type
  | .persistPending _ | .deletePending _ => Unit
  | .selectPending _ => Option PendingRow
  | .insertResolved .. | .pendingIsManagedSpawn _ | .deleteManagedSpawnPending _ | .resolveSpawnPendingBy ..
  | .forceFailclosedSpawnResolution .. | .recordSpawnActionFailure .. => Bool

/-- What a statement answers and leaves behind. `none` is an error of its own. -/
def execute (now : DateTime) : (statement : Statement) → Database → Option (statement.Reply × Database)
  | .persistPending req, db => some ((), db.persistPending req)
  | .selectPending id, db => some (db.selectPending id, db)
  | .insertResolved row decision decidedBy, db => some (db.insertLog (row.resolved decision decidedBy now))
  | .deletePending id, db => some ((), db.deletePending id)
  | .pendingIsManagedSpawn id, db => some (db.pendingIsManagedSpawn id, db)
  | .deleteManagedSpawnPending id, db => some (db.deleteManagedSpawnPending id)
  | .resolveSpawnPendingBy id reviewed decidedBy, db => some (db.resolveSpawnPendingBy id reviewed decidedBy now)
  | .forceFailclosedSpawnResolution id decidedBy fallback, db =>
    db.forceFailclosedSpawnResolution id decidedBy fallback now
  | .recordSpawnActionFailure id error, db => some (db.recordSpawnActionFailure id error)

end Statement

/-- How the wait for a decision ends. -/
inductive Waited where
  | resolved (rich : RichDecision)
  | channelDropped
  | timedOut
  | disconnected
  deriving DecidableEq

/-- How the claim of a spawn request ends. -/
inductive Claimed where
  | absent
  | expired
  | claimed (claim : ClaimedDecision)
  deriving DecidableEq

inductive Request where
  | enqueue (req : DecisionRequest)
  | enqueueManagedSpawn (req : DecisionRequest)
  | inspect (id : Uuid)
  | snapshot
  | resolve (id : Uuid) (rich : RichDecision)
  | resolveListed (ids : List Uuid) (rich : RichDecision)
  | resolveOrdinary (ids : List Uuid) (rich : RichDecision)
  | resolveAll (filter : Option DecisionFilter) (decision : Decision) (resolver : Option String)
  | claim (id : Uuid) (decision : Decision)
  | completeClaim (claim : ClaimedDecision) (rich : RichDecision)
  | finalizeLocal (id : Uuid) (decision : Decision)
  | execute (statement : Statement)
  | executeTimed (statement : Statement)
  | isFresh (device : DeviceId)
  | touch (device : DeviceId)
  | wait (channel : Channel)
  | receive (channel : Channel)
  | write (message : ServerMessage)
  | modeDenial
  | newV4
  | utcNow
  | validateProject (req : SpawnAgentRequest)
  | spawnAgent (req : SpawnAgentRequest)
  | installHooks (project : PathBuf)
  | startExpiry (id : Uuid)
  | loadStarted (id : Uuid)
  | awaitExpiry (id : Uuid)
  | abortExpiry (id : Uuid)
  | endExpiry (id : Uuid)

@[reducible] def Request.Reply : Request → Type
  | .enqueue _ | .enqueueManagedSpawn _ => Option Channel
  | .inspect _ => Option DecisionRequest × Bool
  | .snapshot => List (DecisionRequest × Bool)
  | .resolve .. | .finalizeLocal .. | .isFresh _ | .write _ | .loadStarted _ => Bool
  | .resolveListed .. | .resolveOrdinary .. | .resolveAll .. => List Uuid
  | .claim .. => Claimed
  | .completeClaim .. | .touch _ | .installHooks _ | .startExpiry _ | .awaitExpiry _ | .abortExpiry _
  | .endExpiry _ => Unit
  | .execute statement | .executeTimed statement => Except String statement.Reply
  | .wait _ => Waited
  | .receive _ => Option RichDecision
  | .modeDenial => Option String
  | .newV4 => Uuid
  | .utcNow => DateTime
  | .validateProject _ => Except String PathBuf
  | .spawnAgent _ => Except String Unit

abbrev Daemon := Program Request Request.Reply

/-- The state that the handlers share. A timed statement that was given up may still
be on its way. -/
structure Shared where
  queue : DecisionQueue := .new
  db : Database := {}
  reauth : ReauthRegistry := {}
  instant : Instant := 0
  wall : DateTime := 0
  inFlight : List Statement := []
  startedExpiries : Finset Uuid := ∅
  abortedExpiries : Finset Uuid := ∅
  endedExpiries : Finset Uuid := ∅

/-- What a step leaves to the outside. -/
inductive Choice where
  | proceed
  | refuse (reason : String)
  | giveUp
  | timedOut
  | disconnected
  | drawn (id : Uuid)
  | canonical (project : PathBuf)
  deriving DecidableEq

def spawnApprovalTimeout : Int := 5 * 60 * 1000000000

def maxPendingSpawns : Nat := 8

namespace DecisionQueue

/-- Resolve ids one after the other and keep those that were pending. -/
def resolveListed (queue : DecisionQueue) (rich : RichDecision) : List Uuid → List Uuid × DecisionQueue
  | [] => ([], queue)
  | id :: rest =>
    let (resolved, next) := queue.resolve id rich
    let (others, final) := next.resolveListed rich rest
    (if resolved then id :: others else others, final)

/-- Deadline eligibility and the claim are one step. The age of a request from the
future is zero. -/
def claimTimely (queue : DecisionQueue) (id : Uuid) (decision : Decision) (now : DateTime) :
    Claimed × DecisionQueue :=
  match queue.peek id with
  | none => (.absent, queue)
  | some current =>
    if decision = .approve ∧ spawnApprovalTimeout ≤ now - current.timestamp then (.expired, queue)
    else
      match queue.claim id with
      | (some claim, after) => (.claimed claim, after)
      | (none, after) => (.absent, after)

end DecisionQueue

namespace Shared

/-- A step inside the queue's lock. -/
def locked {α : Type} (shared : Shared) (result : α × DecisionQueue) : Option (α × Shared) :=
  some (result.1, { shared with queue := result.2 })

/-- A statement that is run to its end, or fails without an effect. -/
def executes (shared : Shared) (statement : Statement) : Choice → Option (Except String statement.Reply × Shared)
  | .proceed =>
    match statement.execute shared.wall shared.db with
    | some (reply, db) => some (.ok reply, { shared with db })
    | none => some (.error "fail-closed SpawnAgent fallback lacks daemon provenance", shared)
  | .refuse reason => some (.error reason, shared)
  | _ => none

/-- What a receiver finds in its channel. -/
def received (shared : Shared) (channel : Channel) : Option Waited :=
  let outputs := shared.queue.channels.outputs
  match outputs.findSome? fun output =>
    match output with
    | .sent target rich => if target = channel then some rich else none
    | _ => none with
  | some rich => some (.resolved rich)
  | none => if .senderDropped channel ∈ outputs then some .channelDropped else none

def dropReceiver (shared : Shared) (channel : Channel) : Shared :=
  { shared with queue := { shared.queue with channels := shared.queue.channels.dropReceiver channel } }

/-- One step of a handler. `none` is a step that cannot be taken now, or not with
this choice. -/
def perform (choice : Choice) : (request : Request) → Shared → Option (request.Reply × Shared)
  | .enqueue req, shared => shared.locked (shared.queue.enqueue req)
  | .enqueueManagedSpawn req, shared =>
    shared.locked (if maxPendingSpawns ≤ shared.queue.managedSpawnCount then (none, shared.queue)
      else shared.queue.enqueueManagedSpawn req)
  | .inspect id, shared => some ((shared.queue.peek id, shared.queue.isManagedSpawn id), shared)
  | .snapshot, shared => some (shared.queue.snapshot.map fun req => (req, shared.queue.isManagedSpawn req.id), shared)
  | .resolve id rich, shared => shared.locked (shared.queue.resolve id rich)
  | .resolveListed ids rich, shared => shared.locked (shared.queue.resolveListed rich ids)
  | .resolveOrdinary ids rich, shared =>
    shared.locked (shared.queue.resolveListed rich (ids.filter fun id => !shared.queue.isManagedSpawn id))
  | .resolveAll filter decision resolver, shared => shared.locked (shared.queue.resolveAll filter decision resolver)
  | .claim id decision, shared => shared.locked (shared.queue.claimTimely id decision shared.wall)
  | .completeClaim claim rich, shared => shared.locked ((), (shared.queue.completeClaim claim rich).2)
  | .finalizeLocal id decision, shared => shared.locked (shared.queue.finalizeLocal id decision)
  | .execute statement, shared => shared.executes statement choice
  | .executeTimed statement, shared =>
    match choice with
    | .giveUp => some (.error "timed out", { shared with inFlight := shared.inFlight ++ [statement] })
    | choice => shared.executes statement choice
  | .isFresh device, shared =>
    let (fresh, reauth) := shared.reauth.isFresh device shared.instant
    some (fresh, { shared with reauth })
  | .touch device, shared => some ((), { shared with reauth := shared.reauth.touch device shared.instant })
  | .wait channel, shared =>
    match choice with
    | .proceed => (shared.received channel).map fun waited => (waited, shared.dropReceiver channel)
    | .timedOut => some (.timedOut, shared.dropReceiver channel)
    | .disconnected => some (.disconnected, shared.dropReceiver channel)
    | _ => none
  | .receive channel, shared =>
    (shared.received channel).map fun waited =>
      (match waited with
        | .resolved rich => some rich
        | _ => none, shared.dropReceiver channel)
  | .write _, shared =>
    match choice with
    | .proceed => some (true, shared)
    | .refuse _ => some (false, shared)
    | _ => none
  | .modeDenial, shared =>
    match choice with
    | .proceed => some (none, shared)
    | .refuse reason => some (some reason, shared)
    | _ => none
  | .newV4, shared =>
    match choice with
    | .drawn id => some (id, shared)
    | _ => none
  | .utcNow, shared => some (shared.wall, shared)
  | .validateProject _, shared =>
    match choice with
    | .canonical project => some (.ok project, shared)
    | .refuse reason => some (.error reason, shared)
    | _ => none
  | .spawnAgent _, shared =>
    match choice with
    | .proceed => some (.ok (), shared)
    | .refuse reason => some (.error reason, shared)
    | _ => none
  | .installHooks _, shared => some ((), shared)
  | .startExpiry id, shared =>
    if id ∈ shared.abortedExpiries then none
    else some ((), { shared with startedExpiries := insert id shared.startedExpiries })
  | .loadStarted id, shared => some (id ∈ shared.startedExpiries, shared)
  | .awaitExpiry id, shared => if id ∈ shared.endedExpiries then some ((), shared) else none
  | .abortExpiry id, shared => some ((), { shared with abortedExpiries := insert id shared.abortedExpiries })
  | .endExpiry id, shared => some ((), { shared with endedExpiries := insert id shared.endedExpiries })

end Shared

/-- What happens without a handler: the clocks move, and a write that was given up
takes effect or does not. -/
inductive Drift where
  | tick (elapsed : Nat) (wall : DateTime)
  | settle (position : Nat) (commits : Bool)
  deriving DecidableEq

def Shared.drift : Drift → Shared → Option Shared
  | .tick elapsed wall, shared => some { shared with instant := shared.instant + elapsed, wall }
  | .settle position commits, shared =>
    shared.inFlight[position]?.map fun statement =>
      let settled := { shared with inFlight := shared.inFlight.eraseIdx position }
      if commits then
        match statement.execute shared.wall shared.db with
        | some (_, db) => { settled with db }
        | none => settled
      else settled

/-! ### The daemon's side of a hook connection -/

def enqueue (req : DecisionRequest) : Daemon (Option Channel) :=
  .request (.enqueue req) .pure

def finalizeLocal (id : Uuid) (decision : Decision) : Daemon Bool :=
  .request (.finalizeLocal id decision) .pure

def execute (statement : Statement) : Daemon (Except String statement.Reply) :=
  .request (.execute statement) .pure

def wait (channel : Channel) : Daemon Waited :=
  .request (.wait channel) .pure

def writeMsg (message : ServerMessage) : Daemon Bool :=
  .request (.write message) .pure

def hookDecisionModeDenial : Daemon (Option String) :=
  .request .modeDenial .pure

def isReservedInternalAgentId (agentId : String) : Bool :=
  agentId.startsWith "wisphive-daemon:"

def maxAgentIdSuffixBytes : Nat := 64

private def splitOnce (separator : Char) : List Char → Option (List Char × List Char)
  | [] => none
  | char :: rest =>
    if char = separator then some ([], rest)
    else (splitOnce separator rest).map fun (before, after) => (char :: before, after)

def isValidHookAgentId (agentId : String) : Bool :=
  let chars := agentId.toList
  if '/' ∈ chars ∨ '\\' ∈ chars ∨ ['.', '.'] <:+: chars ∨ '\x00' ∈ chars then false
  else
    match splitOnce '-' chars with
    | none => false
    | some (pre, suffix) =>
      String.ofList pre ∈ ["cc", "codex", "red", "local", "agent"] && !suffix.isEmpty &&
        (String.ofList suffix).utf8ByteSize ≤ maxAgentIdSuffixBytes &&
        suffix.all fun char => char.isAlphanum || char = '_' || char = '-'

/-- A denial of the daemon's own. -/
def rejection (id : Uuid) (message : String) : ServerMessage :=
  .decisionResponse id .deny (some message) none none none

/-- The row is moved to the log in three statements, and the first error ends it. -/
def resolvePendingBy (id : Uuid) (decision : Decision) (decidedBy : String) : Daemon (Except String Unit) := do
  match ← execute (.selectPending id) with
  | .error error => return .error error
  | .ok none => execute (.deletePending id)
  | .ok (some row) =>
    match ← execute (.insertResolved row decision decidedBy) with
    | .error error => return .error error
    | .ok _ => execute (.deletePending id)

/-- The bookkeeping and the answer. A deferral is no auditable decision, so it only
removes the pending row. Without the bookkeeping there is no answer. -/
def answerHook (id : Uuid) (rich : RichDecision) (decidedBy : String) : Daemon Unit := do
  let recorded ←
    if rich.decision = .ask then execute (.deletePending id)
    else resolvePendingBy id rich.decision decidedBy
  match recorded with
  | .error _ => return ()
  | .ok () =>
    let _ ← writeMsg (.decisionResponse id rich.decision rich.message rich.updatedInput rich.additionalContext
      rich.selectedPermission)

/-- The wait is over. A hook that was not answered is approved, one that is gone is
recorded as denied. -/
def settleHook (id : Uuid) : Waited → Daemon Unit
  | .resolved rich => answerHook id rich (rich.resolver.getD "human")
  | .channelDropped => do
    let _ ← finalizeLocal id .approve
    answerHook id .approve "channel_dropped:approve"
  | .timedOut => do
    let _ ← finalizeLocal id .approve
    answerHook id .approve "timeout:approve"
  | .disconnected => do
    let _ ← finalizeLocal id .deny
    let _ ← resolvePendingBy id .deny "hook_disconnected:abandoned"

def handleHook (req : DecisionRequest) : Daemon Unit := do
  if isReservedInternalAgentId req.agentId then
    let _ ← writeMsg (rejection req.id
      "Wisphive rejected this request: agent ids beginning with 'wisphive-daemon:' are reserved")
  else if !isValidHookAgentId req.agentId then
    let _ ← writeMsg (rejection req.id
      "Wisphive rejected this request: agent id must use a supported prefix and a 1-64 byte ASCII [A-Za-z0-9_-] suffix")
  else
    match ← hookDecisionModeDenial with
    | some reason =>
      let _ ← writeMsg (rejection req.id reason)
    | none =>
      match ← execute (.persistPending req) with
      | .error _ => return ()
      | .ok () =>
        match ← enqueue req with
        | none =>
          let _ ← writeMsg (rejection req.id
            "Wisphive rejected this request: a decision with the same id is already pending")
        | some channel => settleHook req.id (← wait channel)

end Wisphive
