import Wisphive.BulkDecisions
import Wisphive.Foundation.Cursor
import Wisphive.Foundation.JsonCodec

/-! The dialogs of the terminal UI over one pending request: a reason, some context, an
edited input or an answer is typed, and Enter sends the decision with the text. -/

namespace Wisphive
open Foundation

/-- What the dialogs take from their libraries: key events, and the text area, whose lines
are the ones that it was made with until a key edits them. -/
structure TextAreas where
  KeyEvent : Type
  code : KeyEvent → KeyCode
  /-- The conversion to the text area's input is the letter m with Control. -/
  ctrlM : KeyEvent → Bool
  TextArea : Type
  new : List String → TextArea
  setPlaceholderText : TextArea → String → TextArea
  moveCursorEnd : TextArea → TextArea
  input : TextArea → KeyEvent → TextArea
  lines : TextArea → List String
  lines_new : ∀ line, lines (new [line]) = [line]
  lines_placeholder : ∀ area text, lines (setPlaceholderText area text) = lines area
  lines_cursor : ∀ area, lines (moveCursorEnd area) = lines area

inductive ModalAction where
  | approveAll
  | denyAll
  | spawnAgent
  | denyWithMessage
  | approveWithContext
  | editInput
  | alwaysAllow
  | askDefer
  | answerQuestion
  | pickProject
  | pickProjectForTerminal
  deriving DecidableEq, Repr

inductive ViewMode where
  | dashboard
  | detail
  | history
  | historyDetail
  | config
  | sessions
  | sessionTimeline
  | projectsExplorer
  | terminalList
  | terminalView
  | terminalReplay
  deriving DecidableEq, Repr

/-- What the dialogs and the keys of a request make the client do. -/
inductive InputAction where
  | none
  | approve (id : Uuid)
  | deny (id : Uuid)
  | denyWithMessage (id : Uuid) (message : String)
  | approveWithContext (id : Uuid) (context : String)
  | approveWithInput (id : Uuid) (updatedInput : Json)
  | alwaysAllow (id : Uuid)
  | askDefer (id : Uuid)
  deriving DecidableEq, Repr

variable (areas : TextAreas) (float : String → Option String)

/-- A dialog over one request. -/
structure Modal where
  title : String
  body : String
  action : ModalAction
  targetId : Option Uuid
  textarea : Option areas.TextArea

/-- One line, with the cursor at its end. A text of several lines is one line too. -/
def makeTextarea (initial placeholder : String) : areas.TextArea :=
  let lines := if initial = "" then [""] else [initial]
  areas.moveCursorEnd (areas.setPlaceholderText (areas.new lines) placeholder)

/-- The command of an input that has one. -/
def commandOf (toolInput : Json) : Option String :=
  (toolInput.get? "command").bind Json.asString?

namespace Modal

def denyWithMessage (id : Uuid) : Modal areas where
  title := "Deny with Message"
  body := "Type a reason (Claude will see this as feedback):"
  action := .denyWithMessage
  targetId := some id
  textarea := some (makeTextarea areas "" "Enter feedback...")

def approveWithContext (id : Uuid) : Modal areas where
  title := "Approve with Context"
  body := "Type additional context (injected into Claude's conversation):"
  action := .approveWithContext
  targetId := some id
  textarea := some (makeTextarea areas "" "Enter context...")

/-- For Bash, just the command, and otherwise the whole value. -/
def initialInput (toolInput : Json) : String :=
  match commandOf toolInput with
  | some cmd => cmd
  | none => toolInput.renderPretty

def editInput (id : Uuid) (toolInput : Json) : Modal areas where
  title := "Edit Input"
  body := "Modify the input, Enter to approve with changes, Esc to cancel:"
  action := .editInput
  targetId := some id
  textarea := some (makeTextarea areas (initialInput toolInput) "")

def confirmAlwaysAllow (id : Uuid) (toolName : String) : Modal areas where
  title := "Always Allow"
  body := "Always allow \"" ++ toolName ++
    "\"?\nThis adds it to auto_approve_add in ~/.wisphive/config.json\n\n  Y = always allow  |  N / Esc = cancel"
  action := .alwaysAllow
  targetId := some id
  textarea := none

def answerQuestion (id : Uuid) : Modal areas where
  title := "Answer Question"
  body := "Type your response (sent as the answer to Claude):"
  action := .answerQuestion
  targetId := some id
  textarea := some (makeTextarea areas "" "Type your answer...")

def confirmAskDefer (id : Uuid) : Modal areas where
  title := "Defer"
  body := "Pass to Claude's native permission prompt?\n\n  Y = defer  |  N / Esc = cancel"
  action := .askDefer
  targetId := some id
  textarea := none

end Modal

/-- The part of the client's state that a request's view and dialogs work on. -/
structure App where
  queue : List DecisionRequest := []
  modal : Option (Modal areas) := none
  detailRequestId : Option Uuid := none
  detailScroll : Nat := 0
  viewMode : ViewMode := .dashboard
  viewBackStack : List ViewMode := []
  viewForwardStack : List ViewMode := []

variable {areas}

namespace App

def navigateBack (app : App areas) : App areas :=
  match app.viewBackStack with
  | [] => app
  | prev :: rest =>
    { app with
      viewMode := prev
      viewBackStack := rest
      viewForwardStack := app.viewMode :: app.viewForwardStack
      detailScroll := 0 }

def exitDetailView (app : App areas) : App areas :=
  { app with detailRequestId := none, detailScroll := 0 }.navigateBack

def detailRequest (app : App areas) : Option DecisionRequest :=
  app.detailRequestId.bind fun id => app.queue.find? (·.id = id)

/-- What is done about the request in view, if there still is one. -/
def onDetail (app : App areas) (act : DecisionRequest → App areas × InputAction) : App areas × InputAction :=
  match app.detailRequest with
  | some req => act req
  | none => (app, .none)

def openModal (app : App areas) (modal : Modal areas) : App areas × InputAction :=
  ({ app with modal := some modal }, .none)

/-- Y approves, N denies, M denies with a message, ! allows always, E edits, C gives
context and ? defers. -/
def handlePreToolUseKeys (app : App areas) : KeyCode → App areas × InputAction
  | .char char =>
    if char = 'y' ∨ char = 'Y' then app.onDetail fun req => (app.exitDetailView, .approve req.id)
    else if char = 'n' ∨ char = 'N' then app.onDetail fun req => (app.exitDetailView, .deny req.id)
    else if char = 'm' ∨ char = 'M' then app.onDetail fun req => app.openModal (.denyWithMessage areas req.id)
    else if char = '!' then app.onDetail fun req => app.openModal (.confirmAlwaysAllow areas req.id req.toolName)
    else if char = 'e' ∨ char = 'E' then app.onDetail fun req => app.openModal (.editInput areas req.id req.toolInput)
    else if char = 'c' ∨ char = 'C' then app.onDetail fun req => app.openModal (.approveWithContext areas req.id)
    else if char = '?' then app.onDetail fun req => app.openModal (.confirmAskDefer areas req.id)
    else (app, .none)
  | _ => (app, .none)

/-- The schema of an elicitation, as the text that its answer starts from. -/
def schemaTemplate (req : DecisionRequest) : String :=
  match req.eventData.bind (·.get? "requested_schema") with
  | some schema => schema.renderPretty
  | none => "\x7b\x7d"

/-- A accepts and edits the content, D declines and C cancels. -/
def handleElicitationKeys (app : App areas) : KeyCode → App areas × InputAction
  | .char char =>
    if char = 'a' ∨ char = 'A' then
      app.onDetail fun req => app.openModal (.editInput areas req.id (.string (schemaTemplate req)))
    else if char = 'd' ∨ char = 'D' then app.onDetail fun req => (app.exitDetailView, .deny req.id)
    else if char = 'c' ∨ char = 'C' then
      app.onDetail fun req => (app.exitDetailView, .denyWithMessage req.id "cancel")
    else (app, .none)
  | _ => (app, .none)

/-- A request leaves the queue, and its view with it. -/
def removeDecision (app : App areas) (id : Uuid) : App areas :=
  let app := if app.detailRequestId = some id then app.exitDetailView else app
  { app with queue := app.queue.filter (·.id ≠ id) }

end App

/-- A text as a value. Objects are maps. -/
def fromStr (text : String) : Option Json :=
  (Json.parse float text).map Json.sorted

/-- A text that is no JSON counts as a bare command. -/
def updatedInput (buf : String) : Json :=
  match fromStr float buf with
  | some val => val
  | none => .object [("command", .string buf)]

/-- The input with an answer filled in. -/
def buildAskAnswer (toolInput : Json) (question answer : String) : Json :=
  match toolInput with
  | .object members => .object (Json.insertSorted "answers" (.object [(question, .string answer)]) members)
  | _ => toolInput

/-- The text of the first question, if the input asks one. -/
def questionText (toolInput : Json) : String :=
  match (((toolInput.get? "questions").bind Json.asArray?).bind List.head?).bind (·.get? "question") with
  | some (.string text) => text
  | _ => ""

namespace App

/-- A dialog that is answered leaves the request's view. -/
def answer (app : App areas) (targetId : Option Uuid) (action : Uuid → InputAction) : App areas × InputAction :=
  match targetId with
  | some id => (app.exitDetailView, action id)
  | none => (app, .none)

/-- Enter. A message, a context or an answer must not be empty. -/
def submit (app : App areas) (modal : Modal areas) (buf : String) : App areas × InputAction :=
  match modal.action with
  | .denyWithMessage =>
    if buf = "" then app.openModal modal else app.answer modal.targetId fun id => .denyWithMessage id buf
  | .approveWithContext =>
    if buf = "" then app.openModal modal else app.answer modal.targetId fun id => .approveWithContext id buf
  | .editInput => app.answer modal.targetId fun id => .approveWithInput id (updatedInput float buf)
  | .answerQuestion =>
    if buf = "" then app.openModal modal
    else
      let toolInput := match app.detailRequest with
        | some req => req.toolInput
        | none => .null
      app.answer modal.targetId fun id => .approveWithInput id (buildAskAnswer toolInput (questionText toolInput) buf)
  | _ => (app, .none)

/-- The dialog is closed already, and is opened again by a key that edits. -/
def handleTextareaModal (app : App areas) (modal : Modal areas) (textarea : areas.TextArea) (key : areas.KeyEvent) :
    App areas × InputAction :=
  match areas.code key with
  | .esc => (app, .none)
  | .enter => app.submit float modal ("\n".intercalate (areas.lines textarea))
  | _ =>
    if areas.ctrlM key then app.openModal modal
    else app.openModal { modal with textarea := some (areas.input textarea key) }

/-- The answer to a question that Y confirms. -/
def handleConfirmModal (app : App areas) (modal : Modal areas) : KeyCode → App areas × InputAction
  | .char char =>
    if char = 'y' ∨ char = 'Y' then
      match modal.action with
      | .alwaysAllow => app.answer modal.targetId .alwaysAllow
      | .askDefer => app.answer modal.targetId .askDefer
      | _ => (app, .none)
    else if char = 'n' ∨ char = 'N' then (app, .none)
    else app.openModal modal
  | .esc => (app, .none)
  | _ => app.openModal modal

/-- A key while a dialog is open. -/
def handleModalInput (app : App areas) (key : areas.KeyEvent) : App areas × InputAction :=
  match app.modal with
  | none => (app, .none)
  | some modal =>
    let closed := { app with modal := none }
    match modal.textarea with
    | some textarea => closed.handleTextareaModal float modal textarea key
    | none => closed.handleConfirmModal modal (areas.code key)

end App

/-- What happens while a dialog is open. A message of the daemon may change the queue. -/
inductive DialogEvent (areas : TextAreas) where
  | key (key : areas.KeyEvent)
  | queue (requests : List DecisionRequest)
  | removeDecision (id : Uuid)

namespace DialogEvent

def handle (app : App areas) : DialogEvent areas → App areas
  | .key pressed => (app.handleModalInput float pressed).1
  | .queue requests => { app with queue := requests }
  | .removeDecision id => app.removeDecision id

/-- The dialog is still being edited behind the event. -/
def Edits : DialogEvent areas → Prop
  | .key pressed => areas.code pressed ≠ .esc ∧ areas.code pressed ≠ .enter
  | .queue _ | .removeDecision _ => True

end DialogEvent

/-! ### The highlighted request -/

/-- The queue panel with its list and its position. -/
structure QueuePanel where
  app : TuiApp := {}
  queue : List DecisionRequest := []
  queueIndex : Nat := 0
  detailRequestId : Option Uuid := none
  deriving DecidableEq, Repr

namespace QueuePanel
variable (toLowercase : String → String)

def filteredQueue (panel : QueuePanel) : List DecisionRequest :=
  panel.app.filteredQueue toLowercase panel.queue

def selectedRequest (panel : QueuePanel) : Option DecisionRequest :=
  (panel.filteredQueue toLowercase)[panel.queueIndex]?

def queueUp (panel : QueuePanel) : QueuePanel :=
  if panel.queueIndex > 0 then { panel with queueIndex := panel.queueIndex - 1 } else panel

def queueDown (panel : QueuePanel) : QueuePanel :=
  let len := (panel.filteredQueue toLowercase).length
  if len > 0 ∧ panel.queueIndex < len - 1 then { panel with queueIndex := panel.queueIndex + 1 } else panel

def enterDetailView (panel : QueuePanel) : QueuePanel :=
  match panel.selectedRequest toLowercase with
  | some req => { panel with detailRequestId := some req.id }
  | none => panel

/-- Only the request in view is kept by its id. The position stays unless it fell off the end. -/
def removeDecision (panel : QueuePanel) (id : Uuid) : QueuePanel :=
  let detailRequestId := if panel.detailRequestId = some id then none else panel.detailRequestId
  let panel := { panel with detailRequestId, queue := panel.queue.filter (·.id ≠ id) }
  { panel with queueIndex := Cursor.clamp (panel.filteredQueue toLowercase) panel.queueIndex }

/-- The keys of the panel. The arrow keys do what J and K do. -/
def handleQueueInput (panel : QueuePanel) : KeyCode → QueuePanel × InputAction
  | .char char =>
    if char = 'j' then (panel.queueDown toLowercase, .none)
    else if char = 'k' then (panel.queueUp, .none)
    else if char = 'y' then
      match panel.selectedRequest toLowercase with
      | some req => (panel, .approve req.id)
      | none => (panel, .none)
    else if char = 'a' ∨ char = 'd' then (panel.enterDetailView toLowercase, .none)
    else ({ panel with app := panel.app.handleQueueInput toLowercase panel.queue (.char char) }, .none)
  | .esc => ({ panel with app := panel.app.handleQueueInput toLowercase panel.queue .esc, queueIndex := 0 }, .none)
  | .enter => (panel.enterDetailView toLowercase, .none)
  | .backspace | .other => (panel, .none)

end QueuePanel

/-- The messages of the daemon that change the queue. -/
inductive QueueMessage where
  | queueSnapshot (items : List DecisionRequest)
  | newDecision (req : DecisionRequest)
  | decisionResolved (id : Uuid)
  deriving DecidableEq, Repr

namespace QueuePanel
variable (toLowercase : String → String)

def receive (panel : QueuePanel) : QueueMessage → QueuePanel
  | .queueSnapshot items => { panel with queue := items, queueIndex := 0 }
  | .newDecision req => { panel with queue := panel.queue ++ [req] }
  | .decisionResolved id => panel.removeDecision toLowercase id

/-- A request arrives, or another one than the given one is removed. -/
def Spares (selected : DecisionRequest) : QueueMessage → Prop
  | .queueSnapshot _ => False
  | .newDecision _ => True
  | .decisionResolved id => id ≠ selected.id

/-- The quick keys act on the request with this id: Y approves it, and the others open it for review. -/
def ActsOn (panel : QueuePanel) (id : Uuid) : Prop :=
  (panel.handleQueueInput toLowercase (.char 'y')).2 = .approve id ∧
    ∀ key ∈ [KeyCode.char 'a', .char 'd', .enter],
      (panel.handleQueueInput toLowercase key).1.detailRequestId = some id

/-- Whatever is removed stands behind the highlighted request, or nothing else is listed
behind it. -/
def Steady (panel : QueuePanel) : QueueMessage → Prop
  | .queueSnapshot _ | .newDecision _ => True
  | .decisionResolved id => Cursor.Stays (fun req => decide (req.id ≠ id)) (panel.filteredQueue toLowercase) panel.queueIndex

instance (selected : DecisionRequest) (message : QueueMessage) : Decidable (Spares selected message) :=
  match message with
  | .queueSnapshot _ => inferInstanceAs (Decidable False)
  | .newDecision _ => inferInstanceAs (Decidable True)
  | .decisionResolved _ => inferInstanceAs (Decidable (_ ≠ _))

instance (panel : QueuePanel) (message : QueueMessage) : Decidable (panel.Steady toLowercase message) :=
  match message with
  | .queueSnapshot _ | .newDecision _ => inferInstanceAs (Decidable True)
  | .decisionResolved _ => inferInstanceAs (Decidable (Cursor.Stays ..))

end QueuePanel

end Wisphive
