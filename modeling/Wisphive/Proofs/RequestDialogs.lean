import Wisphive.Foundation.JsonExtent
import Wisphive.Foundation.JsonMembers
import Wisphive.RequestDialogs

/-! What the edited input of a request becomes. The dialog shows a command or a document,
and Enter guesses from the text which of the two it holds. -/

namespace Wisphive
open Foundation

section Dialogs
variable {areas : TextAreas} {float : String → Option String} {app : App areas} {id : Uuid}
variable {toolInput : Json} {text command : String}

/-- A value in memory. Its objects are maps, and each number has a text that is a number. -/
structure JsonValue (float : String → Option String) where
  json : Json
  sorted : json.Sorted
  legal : ∃ depth, Json.Legal float depth json

/-- What a dialog shows of an input. -/
inductive Representation where
  | command
  | document
  deriving DecidableEq, Repr

def Representation.read (float : String → Option String) (text : String) : Representation → Option Json
  | .command => some (.object [("command", .string text)])
  | .document => fromStr float text

def representation (toolInput : Json) : Representation :=
  if (commandOf toolInput).isSome then .command else .document

/-- The lines that are left in the text area. -/
def App.lines (app : App areas) : Option (List String) :=
  (app.modal.bind (·.textarea)).map areas.lines

/-- The text as Enter reads it. -/
def joined (lines : List String) : String :=
  "\n".intercalate lines

/-- What is sent for an input, of which the dialog holds some lines. An unedited input is
the input again, and every text is read as what was shown. -/
structure InputKept (float : String → Option String) (toolInput : Json) (left : List String) (sent : Json) : Prop where
  unedited : left = [Modal.initialInput toolInput] → sent = toolInput
  represented : (representation toolInput).read float (joined left) = some sent

/-- Where the text area holds a command, no text that is JSON, and all there was if it was not
edited. Where it holds a document, a text that is JSON, and one that stands for the input if
it was not edited. -/
def SentAsShown (float : String → Option String) (toolInput : Json) (left : List String) : Prop :=
  match commandOf toolInput with
  | some cmd =>
    fromStr float (joined left) = none ∧ (left = [cmd] → toolInput = .object [("command", .string cmd)])
  | none =>
    (fromStr float (joined left)).isSome = true ∧
      (left = [toolInput.renderPretty] →
        Json.Legal float Json.maxDepth toolInput ∧ Json.reread float toolInput = toolInput)

theorem joined_singleton (line : String) : joined [line] = line := rfl

theorem commandOf_object (text : String) : commandOf (.object [("command", .string text)]) = some text := rfl

/-- A text is longer than the command of the value that it stands for. -/
theorem command_shorter {value : Json} (read : fromStr float text = some value) (shown : commandOf value = some command) :
    command.length < text.length := by
  obtain ⟨given, parsed, rfl⟩ := Option.map_eq_some_iff.mp read
  obtain ⟨content, found, string⟩ := Option.bind_eq_some_iff.mp shown
  refine Json.shorter_of_parse parsed ?_
  cases given with
  | object members =>
    rw [Json.sorted, Json.get?] at found
    rcases Json.mem_sortedMembers (Json.mem_of_lookup found) with empty | ⟨⟨key, value⟩, member, same⟩
    · cases empty
    · obtain ⟨rfl, rfl⟩ := Prod.mk.inj same
      rw [Json.strings]
      cases value with
      | string content =>
        rw [Json.sorted] at string
        cases string
        exact Json.mem_memberStrings member
      | _ =>
        rw [Json.sorted] at string
        cases string
  | _ =>
    rw [Json.sorted] at found
    cases found

theorem not_own_command {value : Json} (shown : commandOf value = some text) : fromStr float text ≠ some value :=
  fun read => absurd (command_shorter read shown) (Nat.lt_irrefl _)

/-- The text of a document stands for it if it is not nested too deep and its numbers are
read as themselves. -/
theorem fromStr_pretty_iff (value : JsonValue float) {other : Json} :
    fromStr float value.json.renderPretty = some other ↔
      Json.Legal float Json.maxDepth value.json ∧ Json.reread float value.json = other := by
  obtain ⟨depth, legal⟩ := value.legal
  have ordered : (Json.reread float value.json).sorted = Json.reread float value.json :=
    Json.sorted_eq _ (Json.sorted_mapNumbers _ value.sorted)
  constructor
  · intro read
    obtain ⟨given, parsed, rfl⟩ := Option.map_eq_some_iff.mp read
    obtain ⟨shallow, rfl⟩ := (Json.parse_renderPretty_iff legal).mp parsed
    exact ⟨shallow, ordered.symm⟩
  · rintro ⟨shallow, rfl⟩
    have parsed := (Json.parse_renderPretty_iff legal).mpr ⟨shallow, rfl⟩
    rw [fromStr, parsed]
    exact congrArg some ordered

theorem updatedInput_of_read {sent : Json} (read : fromStr float text = some sent) : updatedInput float text = sent := by
  rw [updatedInput, read]

theorem updatedInput_of_refused (refused : fromStr float text = none) :
    updatedInput float text = .object [("command", .string text)] := by
  rw [updatedInput, refused]

/-- A command is sent as one exactly if it is no JSON. -/
theorem updatedInput_command_iff :
    updatedInput float text = .object [("command", .string text)] ↔ fromStr float text = none := by
  constructor
  · intro sent
    cases read : fromStr float text with
    | none => rfl
    | some value =>
      rw [updatedInput_of_read read] at sent
      exact absurd (sent ▸ read) (not_own_command (commandOf_object text))
  · exact updatedInput_of_refused

/-- A document is sent as itself exactly if its text stands for it. -/
theorem updatedInput_pretty_iff (value : JsonValue float) (plain : commandOf value.json = none) :
    updatedInput float value.json.renderPretty = value.json ↔
      Json.Legal float Json.maxDepth value.json ∧ Json.reread float value.json = value.json := by
  rw [← fromStr_pretty_iff value]
  constructor
  · intro sent
    cases read : fromStr float value.json.renderPretty with
    | none =>
      rw [updatedInput_of_refused read] at sent
      rw [← sent, commandOf_object] at plain
      cases plain
    | some other =>
      rw [updatedInput_of_read read] at sent
      rw [sent]
  · exact updatedInput_of_read

/-- What Enter reads is kept exactly where the text area holds what was shown. -/
theorem kept_iff (value : JsonValue float) (left : List String) :
    InputKept float value.json left (updatedInput float (joined left)) ↔ SentAsShown float value.json left := by
  rw [SentAsShown]
  cases shown : commandOf value.json with
  | some cmd =>
    have start : Modal.initialInput value.json = cmd := by rw [Modal.initialInput, shown]
    have command : representation value.json = .command := by rw [representation, shown]; rfl
    have represented : (representation value.json).read float (joined left) = some (updatedInput float (joined left)) ↔
        fromStr float (joined left) = none := by
      rw [command, Representation.read, Option.some_inj, eq_comm, updatedInput_command_iff]
    constructor
    · rintro ⟨unedited, read⟩
      have refused := represented.mp read
      refine ⟨refused, fun same => ?_⟩
      rw [← unedited (start ▸ same), updatedInput_of_refused refused, same, joined_singleton]
    · rintro ⟨refused, whole⟩
      refine ⟨fun same => ?_, represented.mpr refused⟩
      rw [start] at same
      rw [updatedInput_of_refused refused, same, joined_singleton, ← whole same]
  | none =>
    have start : Modal.initialInput value.json = value.json.renderPretty := by rw [Modal.initialInput, shown]
    have document : representation value.json = .document := by rw [representation, shown]; rfl
    have represented : (representation value.json).read float (joined left) = some (updatedInput float (joined left)) ↔
        (fromStr float (joined left)).isSome = true := by
      rw [document, Representation.read]
      cases read : fromStr float (joined left) with
      | none => exact iff_of_false (by simp) (by simp)
      | some sent => rw [updatedInput_of_read read]; exact iff_of_true rfl rfl
    have again (same : left = [value.json.renderPretty]) : updatedInput float (joined left) = value.json ↔
        Json.Legal float Json.maxDepth value.json ∧ Json.reread float value.json = value.json := by
      rw [same, joined_singleton, updatedInput_pretty_iff value shown]
    constructor
    · rintro ⟨unedited, read⟩
      exact ⟨represented.mp read, fun same => (again same).mp (unedited (start ▸ same))⟩
    · rintro ⟨read, stands⟩
      refine ⟨fun same => ?_, represented.mpr read⟩
      rw [start] at same
      exact (again same).mpr (stands same)

/-! ### Runs of the dialog -/

/-- The dialog over an input, with whatever its text area holds. -/
def Editing (id : Uuid) (toolInput : Json) (app : App areas) : Prop :=
  ∃ area, app.modal = some { Modal.editInput areas id toolInput with textarea := some area }

theorem makeTextarea_lines (initial placeholder : String) :
    areas.lines (makeTextarea areas initial placeholder) = [initial] := by
  rw [makeTextarea, areas.lines_cursor, areas.lines_placeholder]
  split
  · next empty => rw [areas.lines_new, empty]
  · exact areas.lines_new initial

theorem lines_opened (opened : app.modal = some (.editInput areas id toolInput)) :
    app.lines = some [Modal.initialInput toolInput] := by
  rw [App.lines, opened]
  exact congrArg some (makeTextarea_lines ..)

namespace App

theorem exitDetailView_modal (app : App areas) : app.exitDetailView.modal = app.modal := by
  unfold exitDetailView navigateBack
  split <;> rfl

theorem removeDecision_modal (app : App areas) (removed : Uuid) : (app.removeDecision removed).modal = app.modal := by
  unfold removeDecision
  split
  · exact app.exitDetailView_modal
  · rfl

/-- A request that is in view is edited by E, and an elicitation is answered by A. -/
theorem opened_by_key {req : DecisionRequest} (detail : app.detailRequest = some req) :
    (app.handlePreToolUseKeys (.char 'e')).1.modal = some (.editInput areas req.id req.toolInput) ∧
      (app.handleElicitationKeys (.char 'a')).1.modal =
        some (.editInput areas req.id (.string (schemaTemplate req))) := by
  constructor
  · simp [handlePreToolUseKeys, onDetail, detail, openModal]
  · simp [handleElicitationKeys, onDetail, detail, openModal]

end App

/-- A key that edits leaves the dialog over the input, and a message does not touch it. -/
theorem Editing.handle {event : DialogEvent areas} (editing : Editing id toolInput app) (edits : event.Edits) :
    Editing id toolInput (event.handle float app) := by
  obtain ⟨area, opened⟩ := editing
  cases event with
  | key pressed =>
    obtain ⟨kept, unsent⟩ := edits
    rw [DialogEvent.handle, App.handleModalInput, opened]
    dsimp only
    rw [App.handleTextareaModal]
    split
    · next closed => exact absurd closed kept
    · next sent => exact absurd sent unsent
    · split
      · exact ⟨area, rfl⟩
      · exact ⟨areas.input area pressed, rfl⟩
  | queue requests => exact ⟨area, opened⟩
  | removeDecision removed => exact ⟨area, (app.removeDecision_modal removed).trans opened⟩

theorem Editing.run {events : List (DialogEvent areas)} (editing : Editing id toolInput app)
    (edits : ∀ event ∈ events, event.Edits) : Editing id toolInput (events.foldl (DialogEvent.handle float) app) := by
  induction events generalizing app with
  | nil => exact editing
  | cons event rest ih =>
    exact ih (editing.handle (edits event (List.mem_cons_self ..)))
      fun later member => edits later (List.mem_cons_of_mem _ member)

theorem Editing.enter {key : areas.KeyEvent} (editing : Editing id toolInput app) (enter : areas.code key = .enter) :
    ∃ left, app.lines = some left ∧
      (app.handleModalInput float key).2 = .approveWithInput id (updatedInput float (joined left)) := by
  obtain ⟨area, opened⟩ := editing
  refine ⟨areas.lines area, by rw [App.lines, opened]; rfl, ?_⟩
  rw [App.handleModalInput, opened]
  dsimp only
  rw [App.handleTextareaModal, enter]
  rfl

/-- Enter approves the request with an input that is kept. -/
def SendsKept (float : String → Option String) (app : App areas) (id : Uuid) (toolInput : Json)
    (key : areas.KeyEvent) : Prop :=
  ∃ left sent, app.lines = some left ∧ (app.handleModalInput float key).2 = .approveWithInput id sent ∧
    InputKept float toolInput left sent

/-- The text area holds what was shown, in the state before Enter. -/
def HoldsShown (float : String → Option String) (app : App areas) (toolInput : Json) : Prop :=
  ∃ left, app.lines = some left ∧ SentAsShown float toolInput left

/-- The input that Enter sends behind any keys and messages is kept exactly where the text area
then holds what was shown. -/
theorem edited_input_kept_iff (value : JsonValue float) {start : App areas} {events : List (DialogEvent areas)}
    {key : areas.KeyEvent} (opened : start.modal = some (.editInput areas id value.json))
    (edits : ∀ event ∈ events, event.Edits) (enter : areas.code key = .enter) :
    SendsKept float (events.foldl (DialogEvent.handle float) start) id value.json key ↔
      HoldsShown float (events.foldl (DialogEvent.handle float) start) value.json := by
  have editing : Editing id value.json start := ⟨_, opened⟩
  obtain ⟨left, held, action⟩ := (editing.run edits).enter enter
  rw [SendsKept, HoldsShown, action, held]
  constructor
  · rintro ⟨_, sent, same, approved, kept⟩
    cases same
    cases approved
    exact ⟨left, rfl, (kept_iff value left).mp kept⟩
  · rintro ⟨_, same, shown⟩
    cases same
    exact ⟨left, _, rfl, rfl, (kept_iff value left).mpr shown⟩

/-- A text area that no key edits. -/
private def fixedAreas : TextAreas where
  KeyEvent := KeyCode
  code key := key
  ctrlM _ := false
  TextArea := List String
  new lines := lines
  setPlaceholderText area _ := area
  moveCursorEnd area := area
  input area _ := area
  lines area := area
  lines_new _ := rfl
  lines_placeholder _ _ := rfl
  lines_cursor _ := rfl

private def pending (toolInput : Json) : DecisionRequest where
  id := 7
  agentId := "agent"
  agentType := .claudeCode
  project := ⟨"/project"⟩
  toolName := "Bash"
  toolInput := toolInput
  timestamp := 0

private def viewed (toolInput : Json) : App fixedAreas where
  queue := [pending toolInput]
  detailRequestId := some 7
  viewMode := .detail
  viewBackStack := [.dashboard]

private def noFloats (_ : String) : Option String := none

private def listing : JsonValue noFloats where
  json := .object [("command", .string "ls")]
  sorted := ⟨List.pairwise_singleton .., trivial, trivial⟩
  legal := ⟨1, trivial, trivial⟩

private def timedListing : JsonValue noFloats where
  json := .object [("command", .string "ls"), ("timeout", .number (.integer 5000))]
  sorted := by
    refine ⟨List.pairwise_pair.mpr ?_, trivial, trivial, trivial⟩
    decide
  legal := ⟨1, trivial, Json.readAs_nat (by decide), trivial⟩

/-- The request in view with the dialog that E opens. -/
private def edited (toolInput : Json) : App fixedAreas :=
  ((viewed toolInput).handlePreToolUseKeys (.char 'e')).1

private theorem edited_modal (toolInput : Json) :
    (edited toolInput).modal = some (.editInput fixedAreas 7 toolInput) := rfl

/-- A command on its own is sent as it was. -/
theorem edited_input_kept_bare : SendsKept noFloats (edited listing.json) 7 listing.json KeyCode.enter := by
  have untouched : ∀ event ∈ ([] : List (DialogEvent fixedAreas)), event.Edits := fun _ member => by cases member
  have sent := edited_input_kept_iff listing (edited_modal listing.json) untouched
    (show fixedAreas.code KeyCode.enter = .enter from rfl)
  exact sent.mpr ⟨["ls"], rfl, by decide +kernel, fun _ => rfl⟩

/-- The other members of an input with a command are lost. -/
theorem edited_input_drops_members :
    ∃ (areas : TextAreas) (float : String → Option String) (value : JsonValue float) (req : DecisionRequest)
      (start : App areas) (key : areas.KeyEvent), start.detailRequest = some req ∧ req.toolInput = value.json ∧
      start.modal = some (.editInput areas req.id value.json) ∧ areas.code key = .enter ∧
        ¬ SendsKept float start req.id value.json key := by
  refine ⟨fixedAreas, noFloats, timedListing, pending timedListing.json, edited timedListing.json, KeyCode.enter,
    by decide, rfl, rfl, rfl, ?_⟩
  rintro ⟨left, sent, held, approved, kept⟩
  have shown : left = ["ls"] := (Option.some.inj held).symm
  have stripped : ((edited timedListing.json).handleModalInput noFloats KeyCode.enter).2 =
      .approveWithInput 7 (.object [("command", .string "ls")]) := by decide +kernel
  rw [stripped] at approved
  cases approved
  exact absurd (kept.unedited shown) (by decide)

end Dialogs

/-! ### The highlighted request -/

namespace QueuePanel
variable {toLowercase : String → String} {panel : QueuePanel} {selected : DecisionRequest} {message : QueueMessage}

theorem filteredQueue_append (more : List DecisionRequest) :
    { panel with queue := panel.queue ++ more }.filteredQueue toLowercase =
      panel.filteredQueue toLowercase ++ { panel with queue := more }.filteredQueue toLowercase := by
  simp only [filteredQueue, TuiApp.filteredQueue]
  cases panel.app.filter with
  | none => rfl
  | some filter => exact List.filter_append _ _

theorem filteredQueue_filter (keeps : DecisionRequest → Bool) (detailRequestId : Option Uuid) :
    { panel with detailRequestId, queue := panel.queue.filter keeps }.filteredQueue toLowercase =
      (panel.filteredQueue toLowercase).filter keeps := by
  simp only [filteredQueue, TuiApp.filteredQueue]
  cases panel.app.filter with
  | none => rfl
  | some filter =>
    dsimp only
    rw [List.filter_filter, List.filter_filter]
    exact List.filter_congr fun _ _ => Bool.and_comm _ _

theorem selectedRequest_removeDecision (id : Uuid) :
    (panel.removeDecision toLowercase id).selectedRequest toLowercase =
      ((panel.filteredQueue toLowercase).filter fun req => decide (req.id ≠ id))[
        Cursor.clamp ((panel.filteredQueue toLowercase).filter fun req => decide (req.id ≠ id)) panel.queueIndex]? := by
  have left := @filteredQueue_filter toLowercase panel (fun req => decide (req.id ≠ id))
    (if panel.detailRequestId = some id then none else panel.detailRequestId)
  rw [← left]
  rfl

/-- One message leaves the highlighted request highlighted exactly if it is steady. -/
theorem selected_receive_iff (highlighted : panel.selectedRequest toLowercase = some selected)
    (spared : Spares selected message) :
    (panel.receive toLowercase message).selectedRequest toLowercase = some selected ↔ panel.Steady toLowercase message := by
  cases message with
  | queueSnapshot items => exact spared.elim
  | newDecision req =>
    refine iff_of_true ?_ trivial
    rw [receive, selectedRequest, filteredQueue_append]
    exact Cursor.get_append highlighted
  | decisionResolved id =>
    rw [receive, selectedRequest_removeDecision, Steady]
    exact Cursor.get_clamp_iff highlighted (decide_eq_true (Ne.symm spared))

theorem actsOn_selected (highlighted : panel.selectedRequest toLowercase = some selected) :
    panel.ActsOn toLowercase selected.id := by
  refine ⟨by simp [handleQueueInput, highlighted], ?_⟩
  intro key member
  have entered : (panel.enterDetailView toLowercase).detailRequestId = some selected.id := by
    simp [enterDetailView, highlighted]
  simp only [List.mem_cons, List.not_mem_nil, or_false] at member
  rcases member with rfl | rfl | rfl
  · simp [handleQueueInput, entered]
  · simp [handleQueueInput, entered]
  · exact entered

/-- Where the ids differ, a removal moves the highlight exactly if it takes a request listed
in front while another one is listed behind. -/
theorem steady_iff_of_distinct (distinct : (panel.queue.map (·.id)).Nodup) (id : Uuid)
    (highlighted : panel.selectedRequest toLowercase = some selected) :
    panel.Steady toLowercase (.decisionResolved id) ↔
      (∀ req ∈ (panel.filteredQueue toLowercase).take panel.queueIndex, req.id ≠ id) ∨
      (∀ req ∈ (panel.filteredQueue toLowercase).drop (panel.queueIndex + 1), req.id = id) := by
  have listed : ((panel.filteredQueue toLowercase).map (·.id)).Nodup := by
    refine distinct.sublist (List.Sublist.map _ ?_)
    rw [filteredQueue, TuiApp.filteredQueue]
    cases panel.app.filter with
    | none => exact List.Sublist.refl _
    | some filter => exact List.filter_sublist
  obtain ⟨inside, _⟩ := List.getElem?_eq_some_iff.mp highlighted
  rw [Steady, Cursor.stays_iff_of_distinct listed inside, Cursor.gone, Cursor.behind, List.countP_eq_zero,
    List.filter_eq_nil_iff]
  simp

/-- The highlighted request stays highlighted, and the quick keys act on it, exactly if
nothing that is removed is listed in front of it while another one is listed behind it. -/
theorem selection_stable_iff (toLowercase : String → String) (panel : QueuePanel) (message : QueueMessage)
    (selected : DecisionRequest) (highlighted : panel.selectedRequest toLowercase = some selected)
    (spared : Spares selected message) :
    ((panel.receive toLowercase message).selectedRequest toLowercase = some selected ∧
      (panel.receive toLowercase message).ActsOn toLowercase selected.id) ↔ panel.Steady toLowercase message := by
  rw [← selected_receive_iff highlighted spared]
  exact ⟨And.left, fun kept => ⟨kept, actsOn_selected kept⟩⟩

private def pendingRead (id : Uuid) : DecisionRequest :=
  { id, agentId := "cc-1", agentType := .claudeCode, project := ⟨"/work"⟩, toolName := "Read", toolInput := .null,
    timestamp := 0 }

/-- Three requests, and the second one is highlighted. -/
private def secondOfThree : QueuePanel :=
  { queue := [pendingRead 1, pendingRead 2, pendingRead 3], queueIndex := 1 }

theorem selection_stable_behind :
    (secondOfThree.receive id (.decisionResolved 3)).selectedRequest id = some (pendingRead 2) :=
  ((selection_stable_iff id secondOfThree (.decisionResolved 3) (pendingRead 2) (by decide +kernel)
    (by decide +kernel)).mpr (by decide +kernel)).1

/-- The first request is resolved: Y approves the third one in place of the second. -/
theorem selection_moves_on : ¬ ∀ (toLowercase : String → String) (panel : QueuePanel) (message : QueueMessage)
    (selected : DecisionRequest), panel.selectedRequest toLowercase = some selected → Spares selected message →
      ((panel.receive toLowercase message).selectedRequest toLowercase = some selected ∧
        (panel.receive toLowercase message).ActsOn toLowercase selected.id) := by
  intro stable
  have kept := (stable id secondOfThree (.decisionResolved 1) (pendingRead 2) (by decide +kernel) (by decide +kernel)).1
  revert kept
  decide +kernel

end QueuePanel

end Wisphive
