import Wisphive.ConfigView
import Wisphive.Proofs.AlwaysAllow
import Wisphive.Proofs.CliView

/-! A press on a tool's row, from the view that was just read to the next call of the hook. The
view has lists and a level of its own, and the hook asks removals before additions. -/

namespace Wisphive.ConfigView
open Foundation HookPolicy

variable {platform : HookPlatform} {members edited document : Json.Members} {key item tool toolName other : String}
  {names : List String} {included add remove : Bool} {legacy : Option Json} {call : HookCall} {files after : PolicyFiles}
  {view : ConfigView} {snapshot : ConfigSnapshot}

/-! ### The edit of two lists -/

theorem lists_names (held : members.lookup key = some (.array (names.map .string))) :
    lists (.object members) key toolName = decide (toolName ∈ names) := by
  rw [lists_array held, List.any_map, Bool.eq_iff_iff, List.any_eq_true, decide_eq_true_iff]
  simp [Json.asString?]

/-- What an edit of one list leaves. -/
structure ListEdit (key item : String) (included : Bool) (members edited : Json.Members) : Prop where
  itself : lists (.object edited) key item = included
  others : ∀ toolName, toolName ≠ item → lists (.object edited) key toolName = lists (.object members) key toolName
  keys : ∀ other, other ≠ key → edited.lookup other = members.lookup other

theorem finish_cases (done : updateStringList.finish members key item included names = .ok edited) :
    (names.filter (· ≠ item) ++ if included then [item] else []) = [] ∧ edited = Json.removeMember members key ∨
      edited = Json.insertMember members key (.array ((names.filter (· ≠ item) ++ if included then [item] else []).map .string)) := by
  rw [updateStringList.finish] at done
  by_cases empty : (names.filter (· ≠ item) ++ if included then [item] else []) = []
  · rw [if_pos empty] at done
    exact .inl ⟨empty, (Except.ok.inj done).symm⟩
  · rw [if_neg empty] at done
    exact .inr (Except.ok.inj done).symm

theorem finish_edit (held : ∀ toolName, lists (.object members) key toolName = decide (toolName ∈ names))
    (done : updateStringList.finish members key item included names = .ok edited) : ListEdit key item included members edited := by
  have shape := finish_cases done
  have kept (toolName : String) : lists (.object edited) key toolName =
      decide (toolName ∈ names.filter (· ≠ item) ++ if included then [item] else []) := by
    rcases shape with ⟨empty, rfl⟩ | rfl
    · have gone : (Json.removeMember members key).lookup key = none := by rw [Json.lookup_removeMember, if_pos rfl]
      rw [lists_other (fun items present => nomatch gone.symm.trans present), empty]
      exact (decide_eq_false (@List.not_mem_nil _ toolName)).symm
    · exact lists_names (by rw [Json.lookup_insertMember, if_pos rfl])
  refine ⟨?_, fun toolName differs => ?_, fun other apart => ?_⟩
  · rw [kept]
    cases included <;> simp
  · rw [kept, held]
    cases included <;> simp [differs]
  · rcases shape with ⟨_, rfl⟩ | rfl
    · rw [Json.lookup_removeMember, if_neg apart]
    · rw [Json.lookup_insertMember, if_neg apart]

theorem updateStringList_edit (done : updateStringList members key item included = .ok edited) :
    ListEdit key item included members edited := by
  rw [updateStringList] at done
  split at done
  next absent =>
    refine finish_edit (fun toolName => ?_) done
    rw [lists_other (fun items present => nomatch absent.symm.trans present)]
    simp
  next items held =>
    split at done
    next names read =>
      refine finish_edit (fun toolName => lists_names ?_) done
      have texts : Json.array items = .array (names.map .string) := CliView.textsOf_eq read
      rw [held, texts]
    next => cases done
  next => cases done

/-- What the override of one tool leaves. -/
structure OverrideEdit (tool : String) (add remove : Bool) (members edited : Json.Members) : Prop where
  added : lists (.object edited) "auto_approve_add" tool = add
  removed : lists (.object edited) "auto_approve_remove" tool = remove
  others : ∀ toolName, toolName ≠ tool →
    lists (.object edited) "auto_approve_add" toolName = lists (.object members) "auto_approve_add" toolName ∧
      lists (.object edited) "auto_approve_remove" toolName = lists (.object members) "auto_approve_remove" toolName
  keys : ∀ other, other ≠ "auto_approve_add" → other ≠ "auto_approve_remove" → edited.lookup other = members.lookup other

theorem toolOverride_edit (done : ConfigMutation.applyTo members (.toolOverride tool add remove) = .ok edited) :
    OverrideEdit tool add remove members edited := by
  cases first : updateStringList members "auto_approve_add" tool add with
  | error reason =>
    rw [ConfigMutation.applyTo, first] at done
    cases done
  | ok middle =>
    rw [ConfigMutation.applyTo, first] at done
    have adds := updateStringList_edit first
    have removes := @updateStringList_edit middle edited _ _ _ done
    have additions (toolName : String) : lists (.object edited) "auto_approve_add" toolName =
        lists (.object middle) "auto_approve_add" toolName := lists_congr (removes.keys _ (by decide))
    have removals (toolName : String) : lists (.object middle) "auto_approve_remove" toolName =
        lists (.object members) "auto_approve_remove" toolName := lists_congr (adds.keys _ (by decide))
    refine ⟨?_, removes.itself, fun toolName differs => ⟨?_, ?_⟩, fun other apart else_ => ?_⟩
    · rw [additions, adds.itself]
    · rw [additions, adds.others toolName differs]
    · rw [removes.others toolName differs, removals]
    · rw [removes.keys other else_, adds.keys other apart]

namespace OverrideEdit
variable (edit : OverrideEdit tool add remove members edited)
include edit

theorem get (apart : key ≠ "auto_approve_add") (other : key ≠ "auto_approve_remove") :
    (Json.object edited).get? key = (Json.object members).get? key :=
  edit.keys key apart other

theorem level : HookPolicy.level platform (.object edited) = HookPolicy.level platform (.object members) := by
  rw [HookPolicy.level, HookPolicy.level, edit.get (by decide) (by decide)]

theorem levelApproved : HookPolicy.levelApproved platform (some (.object edited)) legacy toolName =
    HookPolicy.levelApproved platform (some (.object members)) legacy toolName := by
  have same : configuredLevel platform (some (.object edited)) = configuredLevel platform (some (.object members)) := edit.level
  rw [HookPolicy.levelApproved, HookPolicy.levelApproved, same]

/-- The hook's base approval of the tool. -/
theorem baseApproved : HookPolicy.baseApproved platform (some (.object edited)) legacy tool =
    (!remove && (add || HookPolicy.levelApproved platform (some (.object members)) legacy tool)) := by
  rw [HookPolicy.baseApproved, edit.levelApproved]
  simp only [listed, Option.any_some, edit.added, edit.removed]

/-- Calls of other tools are answered as before, with the same rule. -/
theorem runLocally (differs : call.toolName ≠ tool) :
    HookPolicy.runLocally platform (some (.object edited)) legacy call =
      HookPolicy.runLocally platform (some (.object members)) legacy call := by
  have flags (key : String) (default : Bool) (apart : key ≠ "auto_approve_add") (other : key ≠ "auto_approve_remove") :
      flag (some (.object edited)) key default = flag (some (.object members)) key default := by
    rw [flag, flag, Option.bind_some, Option.bind_some, edit.get apart other]
  have asked (key : String) (apart : key ≠ "auto_approve_add") (other : key ≠ "auto_approve_remove") :
      lists (.object edited) key call.toolName = lists (.object members) key call.toolName := lists_congr (edit.keys key apart other)
  have classified : alwaysDeferClassification (some (.object edited)) call.toolName =
      alwaysDeferClassification (some (.object members)) call.toolName := by
    rw [alwaysDeferClassification, alwaysDeferClassification, flags _ _ (by decide) (by decide), asked _ (by decide) (by decide), asked _ (by decide) (by decide)]
  have modifies : allowSelfModification (some (.object edited)) = allowSelfModification (some (.object members)) :=
    flags _ _ (by decide) (by decide)
  have toggled : eventAutoApprovedBy (some (.object edited)) call.eventType =
      eventAutoApprovedBy (some (.object members)) call.eventType := by
    rw [eventAutoApprovedBy, eventAutoApprovedBy]
    cases held : eventToggle call.eventType with
    | none => rfl
    | some toggle =>
      have named : toggle.1 ≠ "auto_approve_add" ∧ toggle.1 ≠ "auto_approve_remove" := by
        revert held
        cases call.eventType <;> rintro ⟨⟩ <;> decide
      simp only [flags _ _ named.1 named.2]
  have rules : toolRule (.object edited) call.toolName = toolRule (.object members) call.toolName := by
    rw [toolRule, toolRule, edit.get (by decide) (by decide)]
  have based : baseRule platform (some (.object edited)) legacy call.toolName =
      baseRule platform (some (.object members)) legacy call.toolName := by
    rw [baseRule, baseRule, (edit.others _ differs).2, checkBaseApproved, checkBaseApproved, (edit.others _ differs).1, edit.level]
  have approved : autoApprovedBy platform (some (.object edited)) legacy call.toolName call.toolInput =
      autoApprovedBy platform (some (.object members)) legacy call.toolName call.toolInput := by
    rw [autoApprovedBy, autoApprovedBy, Option.bind_some, Option.bind_some, rules, based]
  rw [HookPolicy.runLocally, HookPolicy.runLocally, classified, modifies, toggled, approved]

end OverrideEdit

/-! ### The press -/

/-- What a press sends about the tool. -/
def additionSent (view : ConfigView) (tool : String) : Bool :=
  if view.level.includes tool then tool ∈ view.remove ∧ tool ∈ view.add else tool ∉ view.add

def removalSent (view : ConfigView) (tool : String) : Bool :=
  if view.level.includes tool then tool ∉ view.remove else tool ∈ view.add ∧ tool ∈ view.remove

theorem toggleTool_sent :
    (view.toggleTool tool).2 = .saveConfig (.toolOverride tool (view.additionSent tool) (view.removalSent tool)) := by
  rw [toggleTool, additionSent, removalSent]
  dsimp only
  by_cases granted : view.level.includes tool = true
  · by_cases removed : tool ∈ view.remove
    · simp [granted, removed]
    · simp [granted, removed]
  · by_cases added : tool ∈ view.add
    · simp [granted, added]
    · simp [granted, added]

theorem pressed_tool {toolIdx : Nat} {configKey : ConfigKey} (row : view.rows[view.index]? = some (.tool toolIdx))
    (closed : view.ruleInputMode = false) (pressed : configKey = .code .enter ∨ configKey = .code (.char ' ')) :
    view.handleInput configKey = view.toggleTool (toolAt toolIdx) := by
  have toggles : view.toggle = view.toggleTool (toolAt toolIdx) := by rw [toggle, row]
  rw [handleInput, closed]
  rcases pressed with rfl | rfl <;> exact toggles

/-! ### The view and the hook -/

/-- The fields of the policy, each with its text in the file. -/
structure SnapshotRead (members : Json.Members) (snapshot : ConfigSnapshot) : Prop where
  level : fieldOr none (optional AutoApproveLevel.fromValue) (members.lookup "auto_approve_level") =
    some snapshot.autoApproveLevel
  added : fieldOr none (optional textsOf) (members.lookup "auto_approve_add") = some snapshot.autoApproveAdd
  removed : fieldOr none (optional textsOf) (members.lookup "auto_approve_remove") = some snapshot.autoApproveRemove

theorem fromMembers_fields (read : ConfigSnapshot.fromMembers members = some snapshot) : SnapshotRead members snapshot := by
  obtain ⟨_, level, read⟩ := Option.bind_eq_some_iff.mp read
  obtain ⟨_, added, read⟩ := Option.bind_eq_some_iff.mp read
  obtain ⟨_, removed, read⟩ := Option.bind_eq_some_iff.mp read
  obtain ⟨_, _, read⟩ := Option.bind_eq_some_iff.mp read
  obtain ⟨_, _, read⟩ := Option.bind_eq_some_iff.mp read
  obtain ⟨_, _, read⟩ := Option.bind_eq_some_iff.mp read
  obtain ⟨_, _, read⟩ := Option.bind_eq_some_iff.mp read
  cases read
  exact ⟨level, added, removed⟩

/-- A text that is read has each field once. -/
theorem fromFields_read (read : ConfigSnapshot.fromFields members = some snapshot) : SnapshotRead members snapshot ∧
    ∀ key ∈ ConfigSnapshot.fields, (members.map Prod.fst).count key ≤ 1 := by
  rw [ConfigSnapshot.fromFields] at read
  split at read
  next once =>
    obtain ⟨typed, parsed, rfl⟩ := Option.map_eq_some_iff.mp read
    have fields := fromMembers_fields parsed
    exact ⟨⟨fields.level, fields.added, fields.removed⟩, fun key named => UserConfig.once_of_unrepeated once.1 named⟩
  next => cases read

/-- What one press is to do: the tool's base approval is negated, unless it has a rule or is
asked for always, and calls of other tools are answered as before. -/
structure Toggled (platform : HookPlatform) (tool : String) (before after : PolicyFiles) : Prop where
  flipped : before.trustedConfig.bind (toolRule · tool) = none → deferred before.trustedConfig tool = false →
    HookPolicy.baseApproved platform after.trustedConfig after.trustedLegacy tool =
      !HookPolicy.baseApproved platform before.trustedConfig before.trustedLegacy tool
  framed : ∀ call, call.toolName ≠ tool →
    HookPolicy.runLocally platform after.trustedConfig after.trustedLegacy call =
      HookPolicy.runLocally platform before.trustedConfig before.trustedLegacy call

/-- When a press negates what the hook reads of the tool. A tool of the view's level must be
listed or granted. Of the others a listed one must be neither removed nor granted, and an
unlisted one must be removed or not granted. A view that has not read the file must tell by
the default level what the hook approves. -/
def FlipExact (platform : HookPlatform) (files : PolicyFiles) (tool : String) : Prop :=
  let config := files.parsed.trustedConfig
  let granted := HookPolicy.levelApproved platform config files.parsed.trustedLegacy tool
  let added := listed config "auto_approve_add" tool
  let removed := listed config "auto_approve_remove" tool
  match ConfigSnapshot.ofFile files.config with
  | some snapshot =>
    if (snapshot.autoApproveLevel.getD .read).includes tool then added = true ∨ granted = true
    else if added then removed = false ∧ granted = false
    else removed = true ∨ granted = false
  | none => HookPolicy.baseApproved platform config files.parsed.trustedLegacy tool = AutoApproveLevel.read.includes tool

/-- Nothing is asked about tools with a rule and about those that are asked for always. -/
def ToggleExact (platform : HookPlatform) (files : PolicyFiles) (tool : String) : Prop :=
  files.parsed.trustedConfig.bind (toolRule · tool) = none → deferred files.parsed.trustedConfig tool = false →
    FlipExact platform files tool

section
variable {value : Json} (trusted : trustedConfigJson files.effectiveUid files.config = some value)
include trusted

theorem trusted_contents : files.config.read = .contents (some value) := by
  rw [trustedConfigJson] at trusted
  split at trusted
  next held read => rw [UserConfig.trusted_read read, trusted]
  next => cases trusted

/-- The hook reads the value in which the keys of an object differ. -/
theorem trusted_parsed : files.parsed.trustedConfig = some (Json.lastWins value) := by
  rw [trustedConfigJson] at trusted
  split at trusted
  next held read =>
    have parsed := CliView.parsed_policy read
    rw [trusted] at parsed
    exact parsed
  next => cases trusted

end

/-- The two lists of the view are those of the hook, or the view has read nothing. -/
theorem enter_lists (trusted : trustedConfigJson files.effectiveUid files.config = some (.object document)) :
    match ConfigSnapshot.ofFile files.config with
    | some snapshot => (enter files.config).level = snapshot.autoApproveLevel.getD .read ∧
        ∀ tool, (tool ∈ (enter files.config).add ↔ listed files.parsed.trustedConfig "auto_approve_add" tool = true) ∧
          (tool ∈ (enter files.config).remove ↔ listed files.parsed.trustedConfig "auto_approve_remove" tool = true)
    | none => (enter files.config).level = .read ∧ (enter files.config).add = [] ∧ (enter files.config).remove = [] := by
  have file : ConfigSnapshot.ofFile files.config = ConfigSnapshot.fromFields document := by
    rw [ConfigSnapshot.ofFile, trusted_contents trusted]
    rfl
  rw [enter, file]
  cases read : ConfigSnapshot.fromFields document with
  | none => exact ⟨rfl, rfl, rfl⟩
  | some snapshot =>
    obtain ⟨fields, once⟩ := fromFields_read read
    refine ⟨rfl, fun tool => ?_⟩
    rw [trusted_parsed trusted]
    exact ⟨(CliView.listed_texts (once _ (by decide)) fields.added).symm,
      (CliView.listed_texts (once _ (by decide)) fields.removed).symm⟩

/-- An update of the view edits the configuration that is there. -/
theorem tui_update {mutation : ConfigMutation} (present : files.config.read ≠ .notFound)
    (stored : (ConfigWriter.tui mutation).update platform files = .ok after) :
    ∃ members edited, files.config.value = some (.object members) ∧ mutation.applyTo members = .ok edited ∧
      after = { files with config := writeConfigAtomic files.effectiveUid (.object edited) } := by
  have written : ((updateJson files.effectiveUid files.config (mutation.applyTo ·)).map
      fun config => { files with config }).mapError .failed = (.ok after : Except UpdateRefusal PolicyFiles) := stored
  cases updated : updateJson files.effectiveUid files.config (mutation.applyTo ·) with
  | error fault =>
    rw [updated] at written
    cases written
  | ok config =>
    rw [updated] at written
    cases written
    obtain ⟨members, edited, value, edits, rfl⟩ := updateJson_written present updated
    exact ⟨members, edited, value, edits, rfl⟩

/-- What a press sends negates the base approval exactly under the condition. -/
theorem flips_iff (trusted : trustedConfigJson files.effectiveUid files.config = some (.object document)) :
    (!(enter files.config).removalSent tool && ((enter files.config).additionSent tool ||
        HookPolicy.levelApproved platform files.parsed.trustedConfig files.parsed.trustedLegacy tool)) =
      !HookPolicy.baseApproved platform files.parsed.trustedConfig files.parsed.trustedLegacy tool ↔
    FlipExact platform files tool := by
  have read := enter_lists trusted
  rw [FlipExact, removalSent, additionSent]
  cases file : ConfigSnapshot.ofFile files.config with
  | none =>
    rw [file] at read
    obtain ⟨level, add, remove⟩ := read
    rw [level, add, remove]
    cases AutoApproveLevel.read.includes tool <;>
      cases HookPolicy.baseApproved platform files.parsed.trustedConfig files.parsed.trustedLegacy tool <;> simp
  | some snapshot =>
    rw [file] at read
    obtain ⟨level, lists⟩ := read
    rw [level, HookPolicy.baseApproved]
    simp only [lists]
    cases (snapshot.autoApproveLevel.getD .read).includes tool <;>
      cases listed files.parsed.trustedConfig "auto_approve_add" tool <;>
        cases listed files.parsed.trustedConfig "auto_approve_remove" tool <;>
          cases HookPolicy.levelApproved platform files.parsed.trustedConfig files.parsed.trustedLegacy tool <;> decide

/-- Where the hook's level is the view's, a press fails only on a tool beyond the level that is
both listed and removed. -/
theorem flipExact_of_level (read : ConfigSnapshot.ofFile files.config = some snapshot)
    (level : configuredLevel platform files.parsed.trustedConfig = some (snapshot.autoApproveLevel.getD .read)) :
    FlipExact platform files tool ↔
      ¬ ((snapshot.autoApproveLevel.getD .read).includes tool = false ∧
        listed files.parsed.trustedConfig "auto_approve_add" tool = true ∧
        listed files.parsed.trustedConfig "auto_approve_remove" tool = true) := by
  rw [FlipExact, read, HookPolicy.levelApproved, level]
  dsimp only
  cases (snapshot.autoApproveLevel.getD .read).includes tool <;>
    cases listed files.parsed.trustedConfig "auto_approve_add" tool <;>
      cases listed files.parsed.trustedConfig "auto_approve_remove" tool <;> decide

/-- A press on a tool's row flips exactly that tool exactly under the condition. -/
theorem tool_toggle_exact_iff (platform : HookPlatform) (files after : PolicyFiles) (value : Json)
    (trusted : trustedConfigJson files.effectiveUid files.config = some value) (index toolIdx : Nat)
    (row : (enter files.config).rows[index]? = some (.tool toolIdx)) (key : ConfigKey)
    (pressed : key = .code .enter ∨ key = .code (.char ' ')) (mutation : ConfigMutation)
    (sent : ({ enter files.config with index }.handleInput key).2 = .saveConfig mutation)
    (stored : (ConfigWriter.tui mutation).update platform files.parsed = .ok after) :
    Toggled platform (toolAt toolIdx) files.parsed after ↔ ToggleExact platform files (toolAt toolIdx) := by
  have parsed : files.parsed.config.read = .contents (some (Json.lastWins value)) := by
    rw [PolicyFiles.parsed, StoredFile.parsed, trusted_contents trusted]
    rfl
  rw [@pressed_tool { enter files.config with index } toolIdx key row rfl pressed, toggleTool_sent] at sent
  cases sent
  obtain ⟨members, edited, held, edits, rfl⟩ := tui_update (by rw [parsed]; exact FileRead.noConfusion) stored
  have edit := toolOverride_edit edits
  have object : Json.lastWins value = .object members := by
    rw [StoredFile.value, parsed] at held
    exact Option.some.inj held
  have config : files.parsed.trustedConfig = some (.object members) := by rw [trusted_parsed trusted, object]
  have written : PolicyFiles.trustedConfig { files.parsed with config := writeConfigAtomic files.parsed.effectiveUid (.object edited) } =
      some (.object edited) := trusted_written ..
  obtain ⟨document, rfl⟩ : ∃ document, value = .object document := by
    cases value with
    | object document => exact ⟨document, rfl⟩
    | null | bool _ | number _ | string _ | array _ => simp [Json.lastWins] at object
  have flips := @flips_iff platform _ (toolAt toolIdx) files trusted
  constructor
  · rintro ⟨flipped, _⟩ unruled unasked
    have negated := flipped unruled unasked
    rw [written] at negated
    rw [← flips, ← negated, config]
    exact edit.baseApproved.symm
  · intro whenever
    refine ⟨fun unruled unasked => ?_, fun call differs => ?_⟩
    · rw [written, ← flips.mpr (whenever unruled unasked), config]
      exact edit.baseApproved
    · rw [written, config]
      exact edit.runLocally differs

private def policyFiles (config : Json.Members) : PolicyFiles where
  effectiveUid := 501
  config := writeConfigAtomic 501 (.object config)
  legacy := { kind := .regular, owner := 501, mode := 0o600, read := .notFound }

private def shellAdded : Json.Members :=
  [("auto_approve_level", .string "read"), ("auto_approve_add", .array [.string "Bash"])]

private def shellContested : Json.Members :=
  shellAdded ++ [("auto_approve_remove", .array [.string "Bash"])]

/-- The row of the shell, behind the level, the events and the other tools. -/
private def shellRow : Nat := 34

/-- An addition beyond the level is taken back. -/
theorem tool_toggle_exact_shell :
    Toggled asciiHost "Bash" (policyFiles shellAdded).parsed (policyFiles [("auto_approve_level", .string "read")]) := by
  refine (tool_toggle_exact_iff asciiHost (policyFiles shellAdded) (policyFiles [("auto_approve_level", .string "read")])
    (.object shellAdded) (by decide +kernel) shellRow 30 (by decide +kernel) (.code .enter) (.inl rfl)
    (.toolOverride "Bash" false false) (by decide +kernel) (by decide +kernel)).mpr fun _ _ => ?_
  refine (@flipExact_of_level _ _ _ { autoApproveLevel := some .read, autoApproveAdd := some ["Bash"] } (by decide +kernel)
    (by decide +kernel)).mpr ?_
  decide +kernel

/-- A press on a tool that is both listed and removed takes it off the one list, and the other
still holds it back. -/
theorem contested_tool_stays : ¬ ∀ (platform : HookPlatform) (files after : PolicyFiles) (value : Json),
    trustedConfigJson files.effectiveUid files.config = some value → ∀ (index toolIdx : Nat),
    (enter files.config).rows[index]? = some (.tool toolIdx) → ∀ (key : ConfigKey),
    (key = .code .enter ∨ key = .code (.char ' ')) → ∀ (mutation : ConfigMutation),
    ({ enter files.config with index }.handleInput key).2 = .saveConfig mutation →
    (ConfigWriter.tui mutation).update platform files.parsed = .ok after →
    Toggled platform (toolAt toolIdx) files.parsed after := by
  intro always
  have toggled := always asciiHost (policyFiles shellContested)
    (policyFiles [("auto_approve_level", .string "read"), ("auto_approve_remove", .array [.string "Bash"])])
    (.object shellContested) (by decide +kernel) shellRow 30 (by decide +kernel) (.code .enter) (.inl rfl)
    (.toolOverride "Bash" false true) (by decide +kernel) (by decide +kernel)
  have kept := toggled.flipped (by decide +kernel) (by decide +kernel)
  revert kept
  decide +kernel

end Wisphive.ConfigView
