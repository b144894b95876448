import Wisphive.BulkDecisions
import Wisphive.ConfigUpdates
import Wisphive.EventFiles
import Wisphive.Foundation.Assoc

/-! The configuration view of the terminal UI: what it reads of the file, its rows, and what
each key changes in the view and sends to be stored. -/

namespace Wisphive
open Foundation

/-- The settings that the view reads. Other keys are passed over. -/
structure ConfigSnapshot where
  autoApproveLevel : Option AutoApproveLevel := none
  autoApproveAdd : Option (List String) := none
  autoApproveRemove : Option (List String) := none
  toolRules : Option (List (String × ToolRule)) := none
  autoApproveStop : Option Bool := none
  autoApproveUserPrompt : Option Bool := none
  autoApproveConfigChange : Option Bool := none
  deriving DecidableEq, Repr

namespace ConfigSnapshot

def fields : List String :=
  ["auto_approve_level", "auto_approve_add", "auto_approve_remove", "tool_rules", "auto_approve_stop",
    "auto_approve_user_prompt", "auto_approve_config_change"]

def fromMembers (members : Json.Members) : Option ConfigSnapshot := do
  let tools (key : String) := fieldOr none (optional textsOf) (members.lookup key)
  let flag (key : String) := fieldOr none (optional Json.asBool?) (members.lookup key)
  return {
    autoApproveLevel := ← fieldOr none (optional AutoApproveLevel.fromValue) (members.lookup "auto_approve_level")
    autoApproveAdd := ← tools "auto_approve_add"
    autoApproveRemove := ← tools "auto_approve_remove"
    toolRules := ← fieldOr none (optional toolRulesOf) (members.lookup "tool_rules")
    autoApproveStop := ← flag "auto_approve_stop"
    autoApproveUserPrompt := ← flag "auto_approve_user_prompt"
    autoApproveConfigChange := ← flag "auto_approve_config_change" }

/-- A field that stands twice is an error. -/
def fromFields (members : Json.Members) : Option ConfigSnapshot :=
  if UserConfig.unrepeated fields members ∧ UserConfig.rulesUnrepeated (members.lookup "tool_rules") then
    (fromMembers members).map fun snapshot => { snapshot with toolRules := snapshot.toolRules.map UserConfig.lastRules }
  else none

/-- An object of the fields, or a list of them in their order. -/
def fromDocument : Json → Option ConfigSnapshot
  | .object members => fromFields members
  | .array items => if items.length ≤ fields.length then fromFields (fields.zip items) else none
  | _ => none

/-- Owner and mode of the file are not looked at. -/
def ofFile (file : StoredFile) : Option ConfigSnapshot :=
  match file.read with
  | .contents (some value) => fromDocument value
  | _ => none

end ConfigSnapshot

inductive ConfigRow where
  | level
  | tool (toolIdx : Nat)
  | rule (toolIdx ruleIdx : Nat) (isDeny : Bool)
  | eventToggle (key : String)
  deriving DecidableEq, Repr

/-- The events that can be approved without the human. -/
def eventToggles : List String :=
  ["auto_approve_stop", "auto_approve_user_prompt", "auto_approve_config_change"]

inductive ConfigKey where
  | code (code : KeyCode)
  | up
  | down
  | left
  | right
  deriving DecidableEq, Repr

inductive ConfigAction where
  | none
  | exit
  | quit
  | saveConfig (mutation : ConfigMutation)
  deriving DecidableEq, Repr

structure ConfigView where
  level : AutoApproveLevel := .read
  add : List String := []
  remove : List String := []
  toolRules : List (String × ToolRule) := []
  eventToggles : List (String × Bool) := []
  index : Nat := 0
  ruleInputMode : Bool := false
  ruleBuffer : String := ""
  ruleTargetTool : Option String := none
  ruleIsDeny : Bool := false
  deriving DecidableEq, Repr

namespace ConfigView

/-- A file that is not read leaves the defaults. -/
def enter (file : StoredFile) : ConfigView :=
  let config := (ConfigSnapshot.ofFile file).getD {}
  { level := config.autoApproveLevel.getD .read
    add := config.autoApproveAdd.getD []
    remove := config.autoApproveRemove.getD []
    toolRules := config.toolRules.getD []
    eventToggles :=
      [("auto_approve_stop", config.autoApproveStop.getD false),
        ("auto_approve_user_prompt", config.autoApproveUserPrompt.getD true),
        ("auto_approve_config_change", config.autoApproveConfigChange.getD true)] }

def ruleRows (view : ConfigView) (tool : String) (toolIdx : Nat) : List ConfigRow :=
  match view.toolRules.lookup tool with
  | some rule =>
    (List.range rule.denyPatterns.length).map (.rule toolIdx · true) ++
      (List.range rule.allowPatterns.length).map (.rule toolIdx · false)
  | none => []

/-- The level, the events, and then the tools, each with its rules. -/
def rows (view : ConfigView) : List ConfigRow :=
  .level :: Wisphive.eventToggles.map .eventToggle ++
    allKnownTools.zipIdx.flatMap fun (tool, toolIdx) => .tool toolIdx :: view.ruleRows tool toolIdx

def toolAt (toolIdx : Nat) : String :=
  (allKnownTools[toolIdx]?).getD ""

def levels : List AutoApproveLevel :=
  [.off, .read, .write, .execute, .all]

/-- The next level to either side. The ends hold. -/
def cycleLevel (view : ConfigView) (right : Bool) : ConfigView × ConfigAction :=
  let current := (levels.idxOf? view.level).getD 1
  let next := if right then min (current + 1) (levels.length - 1) else current - 1
  let level := (levels[next]?).getD .read
  ({ view with level }, .saveConfig (.autoApproveLevel level))

def toggleEvent (view : ConfigView) (key : String) : ConfigView × ConfigAction :=
  let enabled := !(view.eventToggles.lookup key).getD false
  ({ view with eventToggles := Assoc.set view.eventToggles key enabled }, .saveConfig (.eventToggle key enabled))

def toggleTool (view : ConfigView) (tool : String) : ConfigView × ConfigAction :=
  let toggled : ConfigView :=
    if view.level.includes tool then
      if tool ∈ view.remove then { view with remove := view.remove.filter (· ≠ tool) }
      else { view with add := view.add.filter (· ≠ tool), remove := view.remove ++ [tool] }
    else if tool ∈ view.add then { view with add := view.add.filter (· ≠ tool) }
    else { view with remove := view.remove.filter (· ≠ tool), add := view.add ++ [tool] }
  (toggled, .saveConfig (.toolOverride tool (tool ∈ toggled.add) (tool ∈ toggled.remove)))

/-- What the view takes for approved. -/
def isApproved (view : ConfigView) (tool : String) : Bool :=
  tool ∉ view.remove && (tool ∈ view.add || view.level.includes tool)

/-- A rule denies a tool that is approved, and allows another. -/
def startRule (view : ConfigView) (tool : String) : ConfigView :=
  { view with
    ruleInputMode := true
    ruleBuffer := ""
    ruleTargetTool := some tool
    ruleIsDeny := view.isApproved tool }

def patternsOf (rule : ToolRule) (isDeny : Bool) : List String :=
  if isDeny then rule.denyPatterns else rule.allowPatterns

def withPatterns (rule : ToolRule) (isDeny : Bool) (patterns : List String) : ToolRule :=
  if isDeny then { rule with denyPatterns := patterns } else { rule with allowPatterns := patterns }

/-- A rule that became empty is dropped, and the cursor stays among the rows. -/
def removeRule (view : ConfigView) (tool : String) (ruleIdx : Nat) (isDeny : Bool) : ConfigView × ConfigAction :=
  let rule := (view.toolRules.lookup tool).getD {}
  let edited := withPatterns rule isDeny ((patternsOf rule isDeny).eraseIdx ruleIdx)
  let toolRules :=
    if edited.denyPatterns = [] ∧ edited.allowPatterns = [] then Assoc.erase view.toolRules tool
    else Assoc.set view.toolRules tool edited
  let removed := { view with toolRules }
  ({ removed with index := if removed.rows.length ≤ view.index then removed.rows.length - 1 else view.index },
    match (patternsOf rule isDeny)[ruleIdx]? with
    | some pattern => .saveConfig (.toolRulePattern tool pattern isDeny false)
    | none => .none)

/-- A pattern that is not blank becomes a rule of the target. -/
def submitRule (view : ConfigView) : ConfigView × ConfigAction :=
  let pattern := EventIngest.trim view.ruleBuffer
  let closed := { view with ruleInputMode := false, ruleBuffer := "" }
  if pattern = "" then (closed, .none)
  else match view.ruleTargetTool with
    | none => (closed, .none)
    | some tool =>
      let rule := (view.toolRules.lookup tool).getD {}
      let patterns := patternsOf rule view.ruleIsDeny
      let edited := if pattern ∈ patterns then rule else withPatterns rule view.ruleIsDeny (patterns ++ [pattern])
      ({ closed with toolRules := Assoc.set view.toolRules tool edited, ruleTargetTool := none },
        .saveConfig (.toolRulePattern tool pattern view.ruleIsDeny true))

def handleRuleInput (view : ConfigView) : ConfigKey → ConfigView × ConfigAction
  | .code .esc => ({ view with ruleInputMode := false, ruleBuffer := "", ruleTargetTool := none }, .none)
  | .code .enter => view.submitRule
  | .code .backspace => ({ view with ruleBuffer := String.ofList view.ruleBuffer.toList.dropLast }, .none)
  | .code (.char char) => ({ view with ruleBuffer := view.ruleBuffer.push char }, .none)
  | _ => (view, .none)

/-- Enter or Space. -/
def toggle (view : ConfigView) : ConfigView × ConfigAction :=
  match view.rows[view.index]? with
  | some (.eventToggle key) => view.toggleEvent key
  | some (.tool toolIdx) => view.toggleTool (toolAt toolIdx)
  | _ => (view, .none)

def handleInput (view : ConfigView) (key : ConfigKey) : ConfigView × ConfigAction :=
  if view.ruleInputMode then view.handleRuleInput key
  else
    let row := view.rows[view.index]?
    match key with
    | .code .esc | .code (.char 'q') => (view, .exit)
    | .code (.char 'j') | .down =>
      ({ view with index := if view.index < view.rows.length - 1 then view.index + 1 else view.index }, .none)
    | .code (.char 'k') | .up => ({ view with index := view.index - 1 }, .none)
    | .left => if row = some .level then view.cycleLevel false else (view, .none)
    | .right => if row = some .level then view.cycleLevel true else (view, .none)
    | .code .enter | .code (.char ' ') => view.toggle
    | .code (.char '+') | .code (.char '=') =>
      match row with
      | some (.tool toolIdx) => (view.startRule (toolAt toolIdx), .none)
      | _ => (view, .none)
    | .code (.char '-') =>
      match row with
      | some (.rule toolIdx ruleIdx isDeny) => view.removeRule (toolAt toolIdx) ruleIdx isDeny
      | _ => (view, .none)
    | .code (.char 'Q') => (view, .quit)
    | _ => (view, .none)

end ConfigView
end Wisphive
