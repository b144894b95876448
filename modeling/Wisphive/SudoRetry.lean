import Wisphive.Foundation.Assoc
import Wisphive.Foundation.Json

/-! The approvals of the web page that the daemon gates, and their replay after the password. The
page keeps a state that React renders and maps that its handlers change in place. -/

namespace Wisphive
open Foundation

structure PendingReauth where
  requestId : String
  toolName : String
  deriving DecidableEq, Repr

structure ApproveOpts where
  message : Option String := none
  updatedInput : Option Json := none
  alwaysAllow : Option Bool := none
  additionalContext : Option String := none
  deriving DecidableEq, Repr

structure StashedApprove where
  toolName : String
  opts : Option ApproveOpts
  deriving DecidableEq, Repr

structure QueuedRequest where
  id : String
  toolName : String
  deriving DecidableEq, Repr

/-- The commands that are gated. -/
inductive Outbound where
  | approve (id : String) (opts : Option ApproveOpts)
  | installHooks (project : String)
  deriving DecidableEq, Repr

/-- What React renders. -/
structure PageState where
  queue : List QueuedRequest := []
  pendingReauth : Option PendingReauth := none
  deriving DecidableEq, Repr

/-- What is changed in place. -/
structure PageRefs where
  queueRef : List QueuedRequest := []
  approveStash : List (String × StashedApprove) := []
  pendingReauths : List (String × PendingReauth) := []
  installStash : List String := []
  socketOpen : Bool := true
  deriving DecidableEq, Repr

structure WebPage where
  state : PageState := {}
  refs : PageRefs := {}
  deriving DecidableEq, Repr

/-- What a call leaves, and what it sends. -/
structure Outcome where
  state : PageState
  refs : PageRefs
  sent : List Outbound := []
  deriving DecidableEq, Repr

/-- The tool of the first request with the id, as a queue shows it. -/
def toolShown (queue : List QueuedRequest) (id : String) : String :=
  ((queue.find? (·.id = id)).map QueuedRequest.toolName).getD ""

namespace PageRefs

/-- Nothing is written to a socket that is not open. -/
def send (refs : PageRefs) (message : Outbound) : List Outbound :=
  if refs.socketOpen then [message] else []

/-- The gates that a call works on: the whole batch, or else the one on display. -/
def gated (refs : PageRefs) (prev : PageState) : List PendingReauth :=
  let gated := refs.pendingReauths.map Prod.snd
  if gated = [] then prev.pendingReauth.toList else gated

/-- One gate of a retry. -/
def replayOne (refs : PageRefs) (prev : PageState) (reauth : PendingReauth) : PageRefs × List Outbound :=
  if reauth.toolName = "InstallHooks" then
    ({ refs with installStash := refs.installStash.filter (· ≠ reauth.requestId) },
      if reauth.requestId ∈ refs.installStash then refs.send (.installHooks reauth.requestId) else [])
  else
    ({ refs with approveStash := Assoc.erase refs.approveStash reauth.requestId },
      match refs.approveStash.lookup reauth.requestId with
      | some stashed =>
        if stashed.toolName = reauth.toolName ∧ prev.queue.any (·.id = reauth.requestId) then
          refs.send (.approve reauth.requestId stashed.opts)
        else []
      | none => [])

def replay (refs : PageRefs) (prev : PageState) : List PendingReauth → PageRefs × List Outbound
  | [] => (refs, [])
  | reauth :: rest =>
    let one := refs.replayOne prev reauth
    let others := replay one.1 prev rest
    (others.1, one.2 ++ others.2)

/-- The updater of `dismissReauth`. -/
def dismiss (refs : PageRefs) (prev : PageState) : Outcome where
  state := { prev with pendingReauth := none }
  refs :=
    { refs with
      pendingReauths := []
      approveStash := (refs.gated prev).foldl (fun stash reauth => Assoc.erase stash reauth.requestId) refs.approveStash
      installStash := (refs.gated prev).foldl (fun stash reauth => stash.filter (· ≠ reauth.requestId)) refs.installStash }

/-- The updater of `retryPendingApprove`. -/
def retry (refs : PageRefs) (prev : PageState) : Outcome :=
  let replayed := { refs with pendingReauths := [] }.replay prev (refs.gated prev)
  { state := { prev with pendingReauth := none }, refs := replayed.1, sent := replayed.2 }

end PageRefs

/-- A call of the page, a message of the daemon, or what React and the socket do by themselves.
React runs the updater of a call once, or twice on one previous state. -/
inductive PageEvent where
  | approve (id : String) (opts : Option ApproveOpts)
  | installHooks (project : String)
  | dismissReauth (twice : Bool)
  | retryPendingApprove (twice : Bool)
  | webReauthRequired (requestId toolName : String) (twice : Bool)
  | decisionResolved (id : String) (twice : Bool)
  | queueSnapshot (items : List QueuedRequest) (twice : Bool)
  | newDecision (request : QueuedRequest) (twice : Bool)
  | installHooksResult (project : String) (twice : Bool)
  /-- The effect that copies the queue has run. -/
  | synced
  | socket (isOpen : Bool)
  deriving DecidableEq, Repr

/-- A set keeps what it has. -/
def insertInstall (stash : List String) (project : String) : List String :=
  if project ∈ stash then stash else stash ++ [project]

namespace WebPage

/-- The second run sees the refs that the first one left. -/
def setState (page : WebPage) (updater : PageRefs → PageState → Outcome) (twice : Bool) : Outcome :=
  let first := updater page.refs page.state
  if twice then
    let second := updater first.refs page.state
    { second with sent := first.sent ++ second.sent }
  else first

/-- An updater that only computes the next state. -/
def setPure (page : WebPage) (next : PageState → PageState) (twice : Bool) : Outcome :=
  page.setState (fun refs prev => { state := next prev, refs }) twice

def handle (page : WebPage) : PageEvent → Outcome
  | .approve id opts =>
    let stashed := { toolName := toolShown page.refs.queueRef id, opts }
    { state := page.state, refs := { page.refs with approveStash := Assoc.set page.refs.approveStash id stashed }
      sent := page.refs.send (.approve id opts) }
  | .installHooks project =>
    { state := page.state
      refs := { page.refs with installStash := insertInstall page.refs.installStash project }
      sent := page.refs.send (.installHooks project) }
  | .dismissReauth twice => page.setState PageRefs.dismiss twice
  | .retryPendingApprove twice => page.setState PageRefs.retry twice
  | .webReauthRequired requestId toolName twice =>
    let gates := Assoc.set page.refs.pendingReauths requestId { requestId, toolName }
    { page with refs := { page.refs with pendingReauths := gates } }.setPure
      ({ · with pendingReauth := some { requestId, toolName } }) twice
  | .decisionResolved id twice =>
    { page with refs := { page.refs with approveStash := Assoc.erase page.refs.approveStash id } }.setPure
      (fun prev => { prev with queue := prev.queue.filter (·.id ≠ id) }) twice
  | .queueSnapshot items twice => page.setPure ({ · with queue := items }) twice
  | .newDecision request twice => page.setPure (fun prev => { prev with queue := prev.queue ++ [request] }) twice
  | .installHooksResult project twice =>
    page.setState (fun refs prev =>
      { state := prev, refs := { refs with installStash := refs.installStash.filter (· ≠ project) } }) twice
  | .synced => { state := page.state, refs := { page.refs with queueRef := page.state.queue } }
  | .socket isOpen => { state := page.state, refs := { page.refs with socketOpen := isOpen } }

/-- The page after events, the newest first. -/
def after : List PageEvent → WebPage
  | [] => {}
  | event :: earlier =>
    let outcome := (after earlier).handle event
    { state := outcome.state, refs := outcome.refs }

end WebPage

/-! ### What the events tell -/

namespace PageHistory

/-- The requests that the messages left in the queue. -/
def queue : List PageEvent → List QueuedRequest
  | [] => []
  | .queueSnapshot items _ :: _ => items
  | .newDecision request _ :: earlier => queue earlier ++ [request]
  | .decisionResolved id _ :: earlier => (queue earlier).filter (·.id ≠ id)
  | _ :: earlier => queue earlier

/-- The tool that the last gate of a request named since a batch was dismissed or replayed. -/
def gate (id : String) : List PageEvent → Option String
  | [] => none
  | .webReauthRequired requestId toolName _ :: earlier => if requestId = id then some toolName else gate id earlier
  | .dismissReauth _ :: _ | .retryPendingApprove _ :: _ => none
  | _ :: earlier => gate id earlier

/-- The latest approval of a request, unless it was resolved, or dismissed or replayed with its
gate, since then. The tool is the one that the queue had for the request. -/
def standing (id : String) : List PageEvent → Option StashedApprove
  | [] => none
  | .approve approved opts :: earlier =>
    if approved = id then some { toolName := toolShown (queue earlier) id, opts } else standing id earlier
  | .decisionResolved resolved _ :: earlier => if resolved = id then none else standing id earlier
  | .dismissReauth _ :: earlier | .retryPendingApprove _ :: earlier =>
    if (gate id earlier).isSome then none else standing id earlier
  | _ :: earlier => standing id earlier

/-- What a retry is to send: each standing approval whose gate named its tool, as long as the
request is queued. -/
def Due (history : List PageEvent) (id : String) (opts : Option ApproveOpts) : Prop :=
  ∃ toolName, gate id history = some toolName ∧ standing id history = some { toolName, opts } ∧
    (queue history).any (·.id = id) = true

/-- When the page keeps what it is to send. An approval is called when the copied queue has the
request and its gates name its tool, which is not the one of an installation. A later gate names
the tool of a standing approval, and the socket is open for a retry. -/
def Timely : List PageEvent → Prop
  | [] => True
  | .approve id _ :: earlier =>
    (toolShown (WebPage.after earlier).refs.queueRef id = toolShown (queue earlier) id ∧
      toolShown (queue earlier) id ≠ "InstallHooks" ∧ ∀ toolName ∈ gate id earlier, toolName = toolShown (queue earlier) id) ∧
    Timely earlier
  | .webReauthRequired id toolName _ :: earlier =>
    (∀ stashed ∈ standing id earlier, toolName = stashed.toolName) ∧ Timely earlier
  | .retryPendingApprove _ :: earlier => (WebPage.after earlier).refs.socketOpen = true ∧ Timely earlier
  | _ :: earlier => Timely earlier

end PageHistory
end Wisphive
