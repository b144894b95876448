import Wisphive.CommandHandler
import Wisphive.Foundation.Interleaving

/-! The daemon at work: any number of hook connections, client commands and spawn
expiries, each advancing one step at a time, in any order. -/

namespace Wisphive
open Foundation

/-- What a task of the daemon was started for. -/
inductive Job where
  | hook (req : DecisionRequest)
  | command (command : ClientCommand)
  | expiry (id : Uuid)
  deriving DecidableEq

def Job.body : Job → Daemon Unit
  | .hook req => handleHook req
  | .command issued => dispatchCommand issued
  | .expiry id => expireSpawn id

/-- The web device on whose behalf a job runs. -/
def Job.device : Job → Option DeviceId
  | .command issued => issued.deviceId
  | .hook _ | .expiry _ => none

@[reducible] def daemon : World where
  Op := Request
  Reply := Request.Reply
  Shared := Shared
  Job := Job
  Choice := Choice
  Drift := Drift
  body := Job.body
  perform := Shared.perform
  drift := Shared.drift

abbrev Trace := History daemon

namespace Trace

/-- What a task was launched for. -/
def jobOf (task : Nat) : Trace → Option Job
  | [] => none
  | .launched other job :: earlier => if other = task then some job else jobOf task earlier
  | _ :: earlier => jobOf task earlier

def deviceOf (task : Nat) (trace : Trace) : Option DeviceId :=
  (trace.jobOf task).bind Job.device

variable {task : Nat}

/-- Only its launch says what a task is for. -/
theorem jobOf_cons {entry : Entry daemon} (trace : Trace) (foreign : ∀ job, entry ≠ .launched task job) :
    jobOf task (entry :: trace) = jobOf task trace := by
  cases entry with
  | launched other job =>
    have differ : other ≠ task := by
      rintro rfl
      exact foreign job rfl
    simp only [jobOf, differ, if_false]
  | performed | drifted => rfl

theorem jobOf_stable (job : Option Job) : Stable task fun trace => jobOf task trace = job :=
  .of_cons fun _ trace foreign known => (jobOf_cons trace foreign).trans known

theorem jobOf_launched (task : Nat) (job : Job) (trace : Trace) :
    jobOf task (.launched task job :: trace) = some job := by
  simp only [jobOf, if_true]

theorem deviceOf_cons {entry : Entry daemon} (trace : Trace) (foreign : ∀ job, entry ≠ .launched task job) :
    deviceOf task (entry :: trace) = deviceOf task trace := by
  rw [deviceOf, jobOf_cons trace foreign, deviceOf]

end Trace

/-! ### The sudo gate

What the sudo gate is for, told of runs: an approval that releases a sudo-class
request for a web device comes after a check that found the device fresh. -/

namespace Request

/-- The requests that a step releases as approved. -/
def approves : Request → Shared → List DecisionRequest
  | .resolve id rich, shared =>
    if rich.decision = .approve ∧ (shared.queue.resolve id rich).1 = true then (shared.queue.peek id).toList else []
  | .resolveListed ids rich, shared =>
    if rich.decision = .approve then (shared.queue.resolveListed rich ids).1.filterMap shared.queue.peek else []
  | .resolveOrdinary ids rich, shared =>
    if rich.decision = .approve then
      (shared.queue.resolveListed rich (ids.filter fun id => !shared.queue.isManagedSpawn id)).1.filterMap
        shared.queue.peek
    else []
  | .resolveAll filter decision resolver, shared =>
    if decision = .approve then
      (shared.queue.resolveAll filter decision resolver).1.filterMap shared.queue.peek
    else []
  | .completeClaim held rich, _ => if rich.decision = .approve then [held.request] else []
  | _, _ => []

end Request

namespace Trace

/-- The requests that one look at the queue showed to a task. -/
def lookBy (task : Nat) : Entry daemon → Option (List DecisionRequest)
  | .performed other (.inspect _) _ reply => if other = task then some reply.1.toList else none
  | .performed other .snapshot _ reply => if other = task then some (reply.map (·.1)) else none
  | _ => none

/-- What a task saw when it first looked, which is what its gate decides on. -/
def gateLook (task : Nat) : Trace → Option (List DecisionRequest)
  | [] => none
  | entry :: earlier =>
    match gateLook task earlier with
    | some look => some look
    | none => lookBy task entry

/-- The gate saw a request under an id, and it was sudo-class. -/
def sawSudo (task : Nat) (id : Uuid) (trace : Trace) : Bool :=
  match gateLook task trace with
  | some look =>
    let seen := look.filter (·.id = id)
    !seen.isEmpty && seen.all (isSudoTool ·.toolName)
  | none => false

/-- An entry in which a task asked about a device that was fresh then. -/
def checkedIn (task : Nat) (device : DeviceId) : Entry daemon → Bool
  | .performed other (.isFresh asked) seen _ =>
    other = task && asked = device && (seen.reauth.isFresh device seen.instant).1
  | _ => false

/-- A task asked whether its device is fresh, and it was at that time. -/
def checked (task : Nat) (device : DeviceId) (trace : Trace) : Bool :=
  trace.any (checkedIn task device)

/-- Every sudo-class request that is released for a web device was checked for
first, by the command that released it. -/
def Gated : Trace → Prop
  | [] => True
  | .performed task request before _ :: earlier =>
    Gated earlier ∧ ∀ device ∈ deviceOf task earlier, ∀ req ∈ request.approves before,
      isSudoTool req.toolName = true → checked task device earlier = true
  | _ :: earlier => Gated earlier

instance decidableGated : (trace : Trace) → Decidable trace.Gated
  | [] => .isTrue trivial
  | .performed _ _ _ _ :: earlier =>
    have := decidableGated earlier
    inferInstanceAs (Decidable (_ ∧ _))
  | .launched _ _ :: earlier => decidableGated earlier
  | .drifted :: earlier => decidableGated earlier

end Trace

/-- A sudo-class request that a web command releases was seen by that command's
gate, under its id and as sudo-class. -/
def gateSees : Guard daemon where
  grants task _ request trace shared :=
    (Trace.deviceOf task trace).isNone || (request.approves shared).all fun req =>
      !isSudoTool req.toolName || Trace.sawSudo task req.id trace

/-! ### Admissions

Which connection an id belongs to, and what the audit row of a decided request
has to say. -/

/-- A log row that was made from a pending row. -/
def LogRow.tells (logged : LogRow) (row : PendingRow) : Bool :=
  logged.id = row.id && logged.toolName = row.toolName && logged.toolInput = row.toolInput &&
    logged.agentId = row.agentId

/-- The log has a row with the id, the tool, the stored input and the agent of a
pending row. -/
def Database.tells (db : Database) (row : PendingRow) : Bool :=
  db.log.any (·.tells row)

namespace Trace

/-- An entry that admits a request to the queue under an id. -/
def admits (id : Uuid) : Entry daemon → Option (Nat × DecisionRequest)
  | .performed task (.enqueue req) _ (some _) => if req.id = id then some (task, req) else none
  | _ => none

/-- The task that deletes the pending row of an id. -/
def deletes (id : Uuid) : Entry daemon → Option Nat
  | .performed task (.execute (.deletePending deleted)) _ (.ok _) => if deleted = id then some task else none
  | _ => none

/-- The connection that was admitted under an id and has not deleted its pending row. -/
def admission (id : Uuid) : Trace → Option (Nat × DecisionRequest)
  | [] => none
  | entry :: earlier =>
    match admits id entry with
    | some admitted => some admitted
    | none => if (admission id earlier).map (·.1) = deletes id entry then none else admission id earlier

/-- The tables in which an entry selects the pending row of an id for a task. -/
def selects (task : Nat) (id : Uuid) : Entry daemon → Option Database
  | .performed other (.execute (.selectPending selected)) before (.ok _) =>
    if other = task ∧ selected = id then some before.db else none
  | _ => none

/-- An entry after which a task deletes no row on account of an earlier selection: it
has deleted it, or failed to log it. -/
def concludes (task : Nat) (id : Uuid) : Entry daemon → Bool
  | .performed other (.execute (.deletePending deleted)) _ _ => other = task ∧ deleted = id
  | .performed other (.execute (.insertResolved row _ _)) _ (.error _) => other = task ∧ row.id = id
  | _ => false

/-- The tables in which a task selected a pending row that it may still delete. -/
def selection (task : Nat) (id : Uuid) : Trace → Option Database
  | [] => none
  | entry :: earlier =>
    match selects task id entry with
    | some db => some db
    | none => if concludes task id entry then none else selection task id earlier

/-- No task is on its way from selecting to deleting the pending row of an id. -/
def unselected (id : Uuid) (trace : Trace) : Bool :=
  trace.all fun entry => entry.task.all fun task => (selection task id trace).isNone

/-- A decision other than a deferral reached the receiver of a connection. -/
def decided (task : Nat) (trace : Trace) : Bool :=
  trace.any fun entry =>
    match entry with
    | .performed other (.wait _) _ (.resolved rich) => other = task && rich.decision ≠ .ask
    | _ => false

/-- The queue admitted the request of a connection. -/
def admitted (task : Nat) (trace : Trace) : Bool :=
  trace.any fun entry =>
    match entry with
    | .performed other (.enqueue _) _ (some _) => other = task
    | _ => false

end Trace

/-- A task that has nothing left to do. -/
def finished (system : System daemon) (task : Nat) : Bool :=
  match system.tasks[task]? with
  | some (.pure ()) => true
  | _ => false

/-- Every decided request of a finished connection has an audit row that describes it. -/
def RequestsAudited (system : System daemon) : Prop :=
  ∀ task req, Trace.jobOf task system.trace = some (.hook req) → Trace.decided task system.trace = true →
    finished system task = true → system.shared.db.tells (.ofRequest req) = true

/-- A connection is admitted while its own row is pending, nobody is about to delete
it, and the id belongs to no other connection. A row that is logged meets no row of
another request with its id or its tool use id. The statements of an admitted
connection do not fail. -/
def recordsMeet : Guard daemon where
  grants task choice request trace shared :=
    match request with
    | .enqueue req =>
      (shared.queue.enqueue req).1.isNone ||
        (shared.db.selectPending req.id = some (.ofRequest req) && Trace.unselected req.id trace &&
          (Trace.admission req.id trace).isNone)
    | .execute (.insertResolved row decision decidedBy) =>
      (shared.db.log.all fun logged =>
        !(row.resolved decision decidedBy shared.wall).conflicts logged || logged.tells row) &&
        (!Trace.admitted task trace || choice = .proceed)
    | .execute _ => !Trace.admitted task trace || choice = .proceed
    | _ => true

end Wisphive
