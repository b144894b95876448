import Wisphive.ClientFeed
import Wisphive.Redact
import Wisphive.Wire

/-! Approve All and Deny All of the terminal UI: the dialog over the filtered queue, the
command that Y sends, and the daemon's side of it while other clients and hooks go on. -/

namespace Wisphive
open Foundation

inductive KeyCode where
  | char (char : Char)
  | enter
  | esc
  | backspace
  | other
  deriving DecidableEq, Repr

inductive BulkAction where
  | approveAll
  | denyAll
  deriving DecidableEq, Repr

/-- A confirmation dialog. It shows the count, which counts the requests that are listed. -/
structure ConfirmModal where
  action : BulkAction
  shown : List DecisionRequest
  deriving DecidableEq, Repr

namespace ConfirmModal

def count (modal : ConfirmModal) : Nat :=
  modal.shown.length

end ConfirmModal

/-- The queue panel of the dashboard. -/
structure TuiApp where
  filter : Option String := none
  filterInputMode : Bool := false
  filterBuffer : String := ""
  modal : Option ConfirmModal := none
  deriving DecidableEq, Repr

namespace TuiApp
variable (toLowercase : String → String)

def filteredQueue (app : TuiApp) (queue : List DecisionRequest) : List DecisionRequest :=
  match app.filter with
  | none => queue
  | some filter =>
    let found (text : String) : Bool := Redact.contains (toLowercase text).toList (toLowercase filter).toList
    queue.filter fun req => found req.toolName || found req.agentId || found req.project.text

/-- Nothing is asked about an empty list. -/
def confirm (app : TuiApp) (action : BulkAction) (queue : List DecisionRequest) : TuiApp :=
  let shown := app.filteredQueue toLowercase queue
  if 0 < shown.length then { app with modal := some { action, shown } } else app

def handleQueueInput (app : TuiApp) (queue : List DecisionRequest) : KeyCode → TuiApp
  | .char char =>
    if char = 'A' then app.confirm toLowercase .approveAll queue
    else if char = 'D' then app.confirm toLowercase .denyAll queue
    else if char = '/' then { app with filterInputMode := true, filterBuffer := "" }
    else app
  | .esc => { app with filter := none }
  | .enter | .backspace | .other => app

def handleFilterInput (app : TuiApp) : KeyCode → TuiApp
  | .enter =>
    { app with
      filterInputMode := false
      filter := if app.filterBuffer = "" then none else some app.filterBuffer }
  | .esc => { app with filterInputMode := false, filterBuffer := "" }
  | .backspace => { app with filterBuffer := String.ofList app.filterBuffer.toList.dropLast }
  | .char char => { app with filterBuffer := app.filterBuffer.push char }
  | .other => app

/-- The dialog's answer, and the dialog that stays open. -/
def handleModalInput (modal : ConfirmModal) : KeyCode → Option ConfirmModal × Option BulkAction
  | .char char =>
    if char = 'y' ∨ char = 'Y' then (none, some modal.action)
    else if char = 'n' ∨ char = 'N' then (none, none)
    else (some modal, none)
  | .esc => (none, none)
  | .enter | .backspace | .other => (some modal, none)

/-- Keys that leave the panel or act on one request change nothing here. -/
def handleEvent (app : TuiApp) (queue : List DecisionRequest) (key : KeyCode) : TuiApp × Option BulkAction :=
  match app.modal with
  | some modal =>
    let (modal, action) := handleModalInput modal key
    ({ app with modal }, action)
  | none =>
    if app.filterInputMode then (app.handleFilterInput key, none)
    else (app.handleQueueInput toLowercase queue key, none)

end TuiApp

namespace BulkAction

/-- The message of `run_loop`. -/
def message : BulkAction → ClientMessage
  | .approveAll => .approveAll none true
  | .denyAll => .denyAll none

end BulkAction

/-- How far the daemon is with a command of this client. -/
inductive BulkHandler where
  | idle
  | listed (ordinary spawns : List Uuid) (shown : List DecisionRequest)
  | spawns (ids : List Uuid) (shown : List DecisionRequest)
  | reviewed (id : Uuid) (rest : List Uuid) (shown : List DecisionRequest)
  deriving DecidableEq, Repr

/-- The dialog's list goes along with its command, and what the command resolves is kept
with that list. -/
structure BulkRun where
  feed : ClientFeed := {}
  app : TuiApp := {}
  outbox : List (ClientMessage × List DecisionRequest) := []
  handler : BulkHandler := .idle
  resolved : List (DecisionRequest × List DecisionRequest) := []
  deriving DecidableEq

inductive BulkEvent where
  /-- The connection, and every operation of hooks, timeouts and other clients. -/
  | feed (event : FeedEvent)
  | key (key : KeyCode)
  /-- A decision about one request, which leaves the client's queue at once. -/
  | removeDecision (id : Uuid)
  | takeCommand
  | denyListed
  | inspectSpawn
  | claimSpawn
  deriving DecidableEq, Repr

namespace BulkRun
variable (toLowercase : String → String)

def pending (run : BulkRun) : List DecisionRequest :=
  run.feed.run.queue.pendingItems

/-- The requests that a step of the handler takes out of the queue. -/
def takes (run : BulkRun) (shown : List DecisionRequest) (feed : ClientFeed) : BulkRun :=
  let taken := run.pending.filter (· ∉ feed.run.queue.pendingItems)
  { run with feed, resolved := run.resolved ++ taken.map fun req => (req, shown) }

def press (run : BulkRun) (key : KeyCode) : BulkRun :=
  let view := run.feed.view
  match run.app.handleEvent toLowercase view.queue key, run.app.modal with
  | (app, some action), some modal =>
    { run with
      app, outbox := run.outbox ++ [(action.message, modal.shown)]
      feed := { run.feed with view := { view with queue := [] } } }
  | (app, _), _ => { run with app }

def denial : RichDecision :=
  { RichDecision.ofDecision .deny with resolver := some "human:tui" }

def takeCommand (run : BulkRun) (message : ClientMessage) (shown : List DecisionRequest) : BulkRun :=
  match message with
  | .approveAll filter confirm =>
    if filter.isNone && !confirm then run
    else
      let queue := (run.feed.run.queue.resolveAll filter .approve (some "human:tui")).2
      run.takes shown (run.feed.operate { run.feed.run with queue })
  | .denyAll filter =>
    let queue := run.feed.run.queue
    let matching := (queue.snapshot.filter fun req => filter.all (·.matchesRequest req)).map (·.id)
    let (ordinary, spawns) := matching.partition fun id => !queue.isManagedSpawn id
    { run with handler := .listed ordinary spawns shown }
  | _ => run

def step (run : BulkRun) : BulkEvent → Option BulkRun
  | .feed event => (run.feed.step event).map fun feed => { run with feed }
  | .key key => some (run.press toLowercase key)
  | .removeDecision id =>
    let view := run.feed.view
    some { run with feed := { run.feed with view := { view with queue := view.queue.filter (·.id ≠ id) } } }
  | .takeCommand =>
    match run.handler, run.outbox with
    | .idle, (message, shown) :: rest => some ({ run with outbox := rest }.takeCommand message shown)
    | _, _ => none
  | .denyListed =>
    match run.handler with
    | .listed ordinary spawns shown =>
      let queue := run.feed.run.queue.resolveEach denial ordinary
      some { run.takes shown (run.feed.operate { run.feed.run with queue }) with handler := .spawns spawns shown }
    | _ => none
  | .inspectSpawn =>
    match run.handler with
    | .spawns [] _ => some { run with handler := .idle }
    | .spawns (id :: rest) shown =>
      let known := (run.feed.run.queue.peek id).isSome && run.feed.run.queue.isManagedSpawn id
      some { run with handler := if known then .reviewed id rest shown else .spawns rest shown }
    | _ => none
  | .claimSpawn =>
    match run.handler with
    | .reviewed id rest shown =>
      -- the claim decides: nobody else can resolve the request any more
      (run.feed.step (.queue (.claim id))).map fun feed =>
        { run.takes shown feed with handler := .spawns rest shown }
    | _ => none

def machine : Machine BulkRun BulkEvent where
  start := {}
  step := step toLowercase

/-- Each request that a confirmation resolved was counted by its dialog. -/
def OnlyShown (run : BulkRun) : Prop :=
  ∀ entry ∈ run.resolved, entry.1 ∈ entry.2

/-- The requests within reach of a step of the handler, and what its dialog counted. -/
def reach (run : BulkRun) : BulkEvent → Option (List DecisionRequest × List DecisionRequest)
  | .takeCommand =>
    match run.handler, run.outbox with
    | .idle, (.approveAll _ _, shown) :: _ =>
      some (run.pending.filter fun req => !run.feed.run.queue.isManagedSpawn req.id, shown)
    | _, _ => none
  | .denyListed =>
    match run.handler with
    | .listed ordinary _ shown =>
      some (run.pending.filter fun req => req.id ∈ ordinary && !run.feed.run.queue.isManagedSpawn req.id, shown)
    | _ => none
  | .claimSpawn =>
    match run.handler with
    | .reviewed id _ shown => some (run.pending.filter (·.id = id), shown)
    | _ => none
  | _ => none

/-- The dialog counted each request within reach. -/
def Covered (run : BulkRun) (event : BulkEvent) : Prop :=
  ∀ within ∈ run.reach event, ∀ req ∈ within.1, req ∈ within.2

/-- A dialog is open, or its command is not handled to the end. -/
def Busy (run : BulkRun) : Prop :=
  run.app.modal.isSome ∨ run.outbox ≠ [] ∨ run.handler ≠ .idle

/-- The dialog that an event opens. -/
def opened (run : BulkRun) : BulkEvent → Option ConfirmModal
  | .key key =>
    if run.app.modal.isNone then (run.app.handleEvent toLowercase run.feed.view.queue key).1.modal else none
  | _ => none

def enqueues : BulkEvent → Bool
  | .feed (.queue (.enqueue _)) | .feed (.queue (.enqueueManagedSpawn _)) => true
  | _ => false

/-- A dialog opens over every pending request, and no request arrives before its command is
handled. -/
def Unhidden (run : BulkRun) (event : BulkEvent) : Prop :=
  (∀ modal ∈ run.opened toLowercase event, ∀ req ∈ run.pending, req ∈ modal.shown) ∧ (enqueues event = true → ¬ run.Busy)

instance (run : BulkRun) : Decidable run.OnlyShown :=
  inferInstanceAs (Decidable (∀ entry ∈ run.resolved, _))

instance (run : BulkRun) (event : BulkEvent) : Decidable (run.Covered event) :=
  inferInstanceAs (Decidable (∀ within ∈ run.reach event, _))

instance (run : BulkRun) : Decidable run.Busy :=
  inferInstanceAs (Decidable (_ ∨ _ ∨ _))

instance (run : BulkRun) (event : BulkEvent) : Decidable (run.Unhidden toLowercase event) :=
  inferInstanceAs (Decidable (_ ∧ _))

end BulkRun
end Wisphive
