import Wisphive.Proofs.ConfigLoading

/-! What an Always Allow does to the calls that the hook approves. The tool is put on the
list that the writer finds on disk, and the hook may then decide by that list for the first
time. -/

namespace Wisphive
open Foundation HookPolicy

/-- The value that a writer finds in a file, whoever may write it. -/
def StoredFile.value (file : StoredFile) : Option Json :=
  match file.read with
  | .contents value => value
  | _ => none

namespace PolicyFiles

def parsed (files : PolicyFiles) : PolicyFiles :=
  { files with config := files.config.parsed, legacy := files.legacy.parsed }

/-- The configuration as the hook reads it. -/
def trustedConfig (files : PolicyFiles) : Option Json :=
  trustedConfigJson files.effectiveUid files.config

def trustedLegacy (files : PolicyFiles) : Option Json :=
  trustedConfigJson files.effectiveUid files.legacy

def AutoApproves (platform : HookPlatform) (files : PolicyFiles) (call : HookCall) : Prop :=
  (autoApprovedBy platform files.trustedConfig files.trustedLegacy call.toolName call.toolInput).isSome = true

/-- The tool's calls are approved up to the deny patterns, and no approval is lost. -/
structure Allowed (platform : HookPlatform) (toolName : String) (before after : PolicyFiles) : Prop where
  honoured : ∀ call, call.toolName = toolName →
    ¬ PatternMatches platform after.trustedConfig "deny_patterns" call → after.AutoApproves platform call
  framed : ∀ call, before.AutoApproves platform call → after.AutoApproves platform call

/-- When an Always Allow takes no approval away. Without a configuration, the calls that the
hook approves must be on the list that the legacy file holds already. With one, an approval by
an allow pattern must not meet a deny pattern, which a listed tool is asked for first. One that
the hook did not trust counts from now on, and the calls approved without it must be
approved by it. -/
def KeepsApprovals (platform : HookPlatform) (toolName : String) (files : PolicyFiles) : Prop :=
  if files.config.read = .notFound then
    ∀ tool, (legacyAutoApproved files.trustedLegacy tool).isSome = true →
      tool = toolName ∨ listed files.legacy.value "auto_approve" tool = true
  else if files.trustedConfig.isSome then
    baseApproved platform files.trustedConfig files.trustedLegacy toolName = true ∨
      ∀ call, call.toolName = toolName → PatternMatches platform files.trustedConfig "allow_patterns" call →
        ¬ PatternMatches platform files.trustedConfig "deny_patterns" call
  else
    ∀ call, (legacyAutoApproved files.trustedLegacy call.toolName).isSome = true →
      if call.toolName = toolName then ¬ PatternMatches platform files.config.value "deny_patterns" call
      else (autoApprovedBy platform files.config.value files.trustedLegacy call.toolName call.toolInput).isSome = true

end PolicyFiles

variable {platform : HookPlatform} {files after : PolicyFiles} {legacy : Option Json} {call : HookCall}
variable {members edited : Json.Members} {items : List Json} {toolName tool key : String}

theorem trusted_written (uid : Nat) (body : Json) : trustedConfigJson uid (writeConfigAtomic uid body) = some body := by
  rw [trustedConfigJson, UserConfig.readTrusted_written]

theorem trusted_notFound {uid : Nat} {file : StoredFile} (missing : file.read = .notFound) :
    trustedConfigJson uid file = none := by
  simp [trustedConfigJson, readTrusted, missing]

/-- What the hook trusts is what a writer finds. -/
theorem value_of_trusted {uid : Nat} {file : StoredFile} {value : Json}
    (trusted : trustedConfigJson uid file = some value) : file.value = some value := by
  unfold trustedConfigJson at trusted
  split at trusted
  · next stored read =>
    rw [StoredFile.value, UserConfig.trusted_read read]
    exact trusted
  · cases trusted

theorem any_pushTool : (pushTool items toolName).any (·.asString? = some tool) =
    (decide (tool = toolName) || items.any (·.asString? = some tool)) := by
  unfold pushTool
  split
  · next present =>
    by_cases same : tool = toolName
    · simpa [same] using present
    · simp [same]
  · simp [Json.asString?, eq_comm, Bool.or_comm]

theorem any_without : (items.filter (·.asString? ≠ some toolName)).any (·.asString? = some tool) =
    (decide (tool ≠ toolName) && items.any (·.asString? = some tool)) := by
  rw [List.any_filter]
  by_cases same : tool = toolName
  · subst same
    simp
  · rw [decide_eq_true same, Bool.true_and]
    congr 1
    funext item
    by_cases named : item.asString? = some tool
    · simp [named, same]
    · simp [named]

/-- What the edit of an Always Allow does to the members. -/
structure AllowEdit (toolName : String) (members edited : Json.Members) : Prop where
  added : ∀ tool, lists (.object edited) "auto_approve_add" tool =
    (decide (tool = toolName) || lists (.object members) "auto_approve_add" tool)
  removed : ∀ tool, lists (.object edited) "auto_approve_remove" tool =
    (decide (tool ≠ toolName) && lists (.object members) "auto_approve_remove" tool)
  others : ∀ key, key ≠ "auto_approve_add" → key ≠ "auto_approve_remove" → edited.lookup key = members.lookup key

theorem lists_array (found : members.lookup key = some (.array items)) :
    lists (.object members) key tool = items.any (·.asString? = some tool) := by
  simp [lists, Json.get?, found, Json.asArray?]

theorem lists_inserted : lists (.object (Json.insertMember members key (.array items))) key tool =
    items.any (·.asString? = some tool) :=
  lists_array (by rw [Json.lookup_insertMember, if_pos rfl])

theorem lists_congr (same : edited.lookup key = members.lookup key) :
    lists (.object edited) key tool = lists (.object members) key tool := by
  simp only [lists, Json.get?, same]

theorem lists_other (other : ∀ items, members.lookup key ≠ some (.array items)) :
    lists (.object members) key tool = false := by
  unfold lists
  split
  · next items found =>
    obtain ⟨value, stored, array⟩ := Option.bind_eq_some_iff.mp found
    cases value with
    | array held =>
      cases array
      exact absurd stored (other items)
    | _ => cases array
  · rfl

/-- A missing list is begun, and every other list is one already. -/
theorem lists_begun (found : (members.lookup key).getD (.array []) = .array items) :
    lists (.object members) key tool = items.any (·.asString? = some tool) := by
  cases stored : members.lookup key with
  | none =>
    rw [stored] at found
    cases found
    exact lists_other (fun items present => by rw [stored] at present; cases present)
  | some value =>
    rw [stored] at found
    cases found
    exact lists_array stored

theorem allowTool_edit (edits : allowTool toolName members = .ok edited) : AllowEdit toolName members edited := by
  unfold allowTool at edits
  split at edits
  · next items found =>
    split at edits
    · next removed kept =>
      cases edits
      refine ⟨fun tool => ?_, fun tool => ?_, fun key differs apart => ?_⟩
      · rw [lists_begun found, ← any_pushTool, ← lists_inserted]
        exact lists_congr (by rw [Json.lookup_insertMember, if_neg (by decide)])
      · rw [lists_inserted, any_without, lists_array kept]
      · rw [Json.lookup_insertMember, if_neg apart, Json.lookup_insertMember, if_neg differs]
    · next other =>
      cases edits
      refine ⟨fun tool => ?_, fun tool => ?_, fun key differs apart => ?_⟩
      · rw [lists_inserted, any_pushTool, lists_begun found]
      · have unlisted : lists (.object members) "auto_approve_remove" tool = false := lists_other other
        rw [unlisted, Bool.and_false, ← unlisted]
        exact lists_congr (by rw [Json.lookup_insertMember, if_neg (by decide)])
      · rw [Json.lookup_insertMember, if_neg differs]
  · cases edits

namespace AllowEdit
variable (edit : AllowEdit toolName members edited)
include edit

theorem patternMatches : PatternMatches platform (some (.object edited)) key call ↔
    PatternMatches platform (some (.object members)) key call := by
  have rules : toolRule (.object edited) call.toolName = toolRule (.object members) call.toolName := by
    simp only [toolRule, Json.get?, edit.others "tool_rules" (by decide) (by decide)]
  simp only [PatternMatches, rulePatterns, Option.bind_some, rules]

theorem levelApproved : HookPolicy.levelApproved platform (some (.object edited)) legacy tool =
    HookPolicy.levelApproved platform (some (.object members)) legacy tool := by
  simp only [HookPolicy.levelApproved, configuredLevel, Option.bind_some, level, Json.get?,
    edit.others "auto_approve_level" (by decide) (by decide)]

theorem baseApproved : HookPolicy.baseApproved platform (some (.object edited)) legacy tool =
    (decide (tool = toolName) || HookPolicy.baseApproved platform (some (.object members)) legacy tool) := by
  unfold HookPolicy.baseApproved
  rw [edit.levelApproved]
  simp only [listed, Option.any_some, edit.added, edit.removed]
  by_cases same : tool = toolName <;> simp [same]

/-- The tool is approved up to its deny patterns, and the others are as they were. -/
theorem approves_iff :
    (autoApprovedBy platform (some (.object edited)) legacy call.toolName call.toolInput).isSome = true ↔
      if call.toolName = toolName then ¬ PatternMatches platform (some (.object members)) "deny_patterns" call
      else (autoApprovedBy platform (some (.object members)) legacy call.toolName call.toolInput).isSome = true := by
  rw [autoApprovedBy_iff, autoApprovedBy_iff, edit.baseApproved, edit.patternMatches, edit.patternMatches]
  by_cases same : call.toolName = toolName <;> simp [same]

end AllowEdit

theorem approves_unconfigured : (autoApprovedBy platform none legacy call.toolName call.toolInput).isSome =
    (legacyAutoApproved legacy call.toolName).isSome := rfl

/-- The hook decides by the list that an Always Allow left in the legacy file. -/
theorem allowLegacyTool_listed {uid : Nat} {file written : StoredFile}
    (allowed : allowLegacyTool uid file toolName = .ok written) :
    (legacyAutoApproved (trustedConfigJson uid written) tool).isSome =
      (decide (tool = toolName) || listed file.value "auto_approve" tool) := by
  have finish (members : Json.Members) (finished : allowLegacyTool.finish uid toolName members = .ok written) :
      (legacyAutoApproved (trustedConfigJson uid written) tool).isSome =
        (decide (tool = toolName) || lists (.object members) "auto_approve" tool) := by
    unfold allowLegacyTool.finish at finished
    split at finished
    · next items found =>
      cases finished
      have stored : ((Json.object (Json.insertMember members "auto_approve" (.array (pushTool items toolName)))).get?
          "auto_approve").bind Json.asArray? = some (pushTool items toolName) := by
        simp [Json.get?, Json.lookup_insertMember, Json.asArray?]
      rw [trusted_written, lists_begun found, ← any_pushTool]
      simp only [legacyAutoApproved, Option.bind_some, stored]
      split
      · next named => exact named.symm
      · next unnamed => exact (Bool.eq_false_iff.mpr unnamed).symm
    · cases finished
  unfold allowLegacyTool at allowed
  split at allowed
  · cases allowed
  · cases allowed
  · cases allowed
  · next members contents =>
    rw [finish members allowed, StoredFile.value, contents]
    rfl
  · cases allowed
  · next missing =>
    rw [finish [] allowed, StoredFile.value, missing]
    rfl

theorem updateJson_written {uid : Nat} {file written : StoredFile} {mutate : Json.Members → Except String Json.Members}
    (present : file.read ≠ .notFound) (updated : updateJson uid file mutate = .ok written) :
    ∃ members edited, file.value = some (.object members) ∧ mutate members = .ok edited ∧
      written = writeConfigAtomic uid (.object edited) := by
  unfold updateJson at updated
  split at updated
  · cases updated
  · cases updated
  · cases updated
  · next members contents =>
    unfold updateJson.finish at updated
    split at updated
    · next edited mutated =>
      cases updated
      exact ⟨members, edited, by rw [StoredFile.value, contents], mutated, rfl⟩
    · cases updated
  · cases updated
  · next missing => exact absurd missing present

/-- Without a configuration the legacy file is edited, and with one the configuration. -/
theorem persistAutoApprove_cases (persisted : persistAutoApprove toolName files = .ok after) :
    files.config.read = .notFound ∧
        (∃ written, allowLegacyTool files.effectiveUid files.legacy toolName = .ok written ∧
          after = { files with legacy := written }) ∨
      files.config.read ≠ .notFound ∧ ∃ members edited, files.config.value = some (.object members) ∧
        AllowEdit toolName members edited ∧
        after = { files with config := writeConfigAtomic files.effectiveUid (.object edited) } := by
  unfold persistAutoApprove at persisted
  split at persisted
  · next missing =>
    cases allowed : allowLegacyTool files.effectiveUid files.legacy toolName with
    | error fault =>
      rw [allowed] at persisted
      cases persisted
    | ok written =>
      rw [allowed] at persisted
      cases persisted
      exact .inl ⟨missing, written, rfl, rfl⟩
  · next present =>
    cases updated : updateJson files.effectiveUid files.config (allowTool toolName) with
    | error fault =>
      rw [updated] at persisted
      cases persisted
    | ok written =>
      rw [updated] at persisted
      cases persisted
      obtain ⟨members, edited, value, edits, rfl⟩ := updateJson_written present updated
      exact .inr ⟨present, members, edited, value, allowTool_edit edits, rfl⟩

namespace PolicyFiles

/-- Where there is no configuration. -/
theorem allowed_legacy_iff (missing : files.config.read = .notFound) {written : StoredFile}
    (allowed : allowLegacyTool files.effectiveUid files.legacy toolName = .ok written) :
    Allowed platform toolName files { files with legacy := written } ↔
      ∀ tool, (legacyAutoApproved files.trustedLegacy tool).isSome = true →
        tool = toolName ∨ listed files.legacy.value "auto_approve" tool = true := by
  have before (call : HookCall) : files.AutoApproves platform call ↔
      (legacyAutoApproved files.trustedLegacy call.toolName).isSome = true := by
    rw [AutoApproves, trustedConfig, trusted_notFound missing, approves_unconfigured]
  have later (call : HookCall) : { files with legacy := written }.AutoApproves platform call ↔
      call.toolName = toolName ∨ listed files.legacy.value "auto_approve" call.toolName = true := by
    rw [AutoApproves, trustedConfig, trusted_notFound missing, approves_unconfigured, trustedLegacy,
      allowLegacyTool_listed allowed, Bool.or_eq_true, decide_eq_true_iff]
  constructor
  · rintro ⟨_, framed⟩ tool approved
    exact (later ⟨.preToolUse, tool, .null⟩).mp (framed _ ((before ⟨.preToolUse, tool, .null⟩).mpr approved))
  · intro kept
    refine ⟨fun call named _ => (later call).mpr (.inl named), fun call approved => ?_⟩
    exact (later call).mpr (kept call.toolName ((before call).mp approved))

/-- Where there is one. -/
theorem allowed_config_iff (edit : AllowEdit toolName members edited)
    (value : files.config.value = some (.object members)) :
    Allowed platform toolName files
        { files with config := writeConfigAtomic files.effectiveUid (.object edited) } ↔
      ∀ call, files.AutoApproves platform call →
        if call.toolName = toolName then ¬ PatternMatches platform files.config.value "deny_patterns" call
        else (autoApprovedBy platform files.config.value files.trustedLegacy call.toolName
          call.toolInput).isSome = true := by
  have config : { files with config := writeConfigAtomic files.effectiveUid (.object edited) }.trustedConfig =
      some (.object edited) := trusted_written ..
  have later (call : HookCall) :
      { files with config := writeConfigAtomic files.effectiveUid (.object edited) }.AutoApproves platform call ↔
        if call.toolName = toolName then ¬ PatternMatches platform files.config.value "deny_patterns" call
        else (autoApprovedBy platform files.config.value files.trustedLegacy call.toolName
          call.toolInput).isSome = true := by
    rw [AutoApproves, config, value]
    exact edit.approves_iff
  constructor
  · intro allowed call approved
    exact (later call).mp (allowed.framed call approved)
  · intro kept
    refine ⟨fun call named unmet => ?_, fun call approved => (later call).mpr (kept call approved)⟩
    rw [later, if_pos named]
    rw [config, edit.patternMatches] at unmet
    rwa [value]

/-- Under a configuration that the hook trusts, the only approvals at stake are those of the
tool's allow patterns. -/
theorem configured_keeps_iff {config : Option Json} :
    (∀ call, (autoApprovedBy platform config legacy call.toolName call.toolInput).isSome = true →
        if call.toolName = toolName then ¬ PatternMatches platform config "deny_patterns" call
        else (autoApprovedBy platform config legacy call.toolName call.toolInput).isSome = true) ↔
      baseApproved platform config legacy toolName = true ∨
        ∀ call, call.toolName = toolName → PatternMatches platform config "allow_patterns" call →
          ¬ PatternMatches platform config "deny_patterns" call := by
  constructor
  · intro kept
    by_cases based : baseApproved platform config legacy toolName = true
    · exact .inl based
    · refine .inr fun call named met => ?_
      have approved : (autoApprovedBy platform config legacy call.toolName call.toolInput).isSome = true := by
        rw [autoApprovedBy_iff, named, if_neg based]
        exact met
      have clear := kept call approved
      rwa [if_pos named] at clear
  · intro condition call approved
    split
    · next named =>
      have before := autoApprovedBy_iff.mp approved
      rw [named] at before
      by_cases based : baseApproved platform config legacy toolName = true
      · rwa [if_pos based] at before
      · rw [if_neg based] at before
        exact condition.resolve_left based call named before
    · exact approved

/-- An Always Allow that is stored approves the tool up to its deny patterns and keeps every
approval exactly where the condition on the two files holds. -/
theorem always_allow_frames_iff (persisted : persistAutoApprove toolName files.parsed = .ok after) :
    Allowed platform toolName files.parsed after ↔ KeepsApprovals platform toolName files.parsed := by
  rcases persistAutoApprove_cases persisted with ⟨missing, written, allowed, rfl⟩ |
    ⟨present, members, edited, value, edit, rfl⟩
  · rw [allowed_legacy_iff missing allowed, KeepsApprovals, if_pos missing]
  · rw [allowed_config_iff edit value, KeepsApprovals, if_neg present]
    cases trusted : files.parsed.trustedConfig with
    | some config =>
      have same : files.parsed.config.value = some config := value_of_trusted trusted
      rw [if_pos (show (some config).isSome = true from rfl), same, ← configured_keeps_iff]
      refine forall_congr' fun call => ?_
      rw [AutoApproves, trusted]
    | none =>
      rw [if_neg (show ¬ (none : Option Json).isSome = true from Bool.false_ne_true)]
      refine forall_congr' fun call => ?_
      rw [AutoApproves, trusted, approves_unconfigured]

/-- A state directory without a configuration. -/
private def unconfigured (legacy : FileRead) : PolicyFiles where
  effectiveUid := 501
  config := { kind := .regular, owner := 501, mode := 0o600, read := .notFound }
  legacy := { kind := .regular, owner := 501, mode := 0o600, read := legacy }

private def allowList (tools : List String) : Json :=
  .object [("auto_approve", .array (tools.map .string))]

private def shellAllowed (tools : List String) : PolicyFiles :=
  { unconfigured .notFound with legacy := writeConfigAtomic 501 (allowList tools) }

/-- A list that is there already only grows. -/
theorem always_allow_frames_listed :
    Allowed asciiHost "Bash" (unconfigured (.contents (some (allowList ["Read"])))).parsed
      (shellAllowed ["Read", "Bash"]) := by
  refine (always_allow_frames_iff (by decide +kernel)).mpr ?_
  have read : (unconfigured (.contents (some (allowList ["Read"])))).parsed.trustedLegacy =
      some (allowList ["Read"]) := by decide +kernel
  rw [KeepsApprovals, if_pos (by decide), read]
  intro tool approved
  by_cases named : tool = "Read"
  · subst named
    exact .inr (by decide +kernel)
  · refine absurd approved ?_
    simp [legacyAutoApproved, allowList, Json.get?, Json.asArray?, Json.asString?, Ne.symm named]

/-- The first list takes the place of the default tier, so that reading is asked for. -/
theorem always_allow_drops_defaults :
    ∃ (platform : HookPlatform) (toolName : String) (files after : PolicyFiles),
      persistAutoApprove toolName files.parsed = .ok after ∧ ¬ Allowed platform toolName files.parsed after := by
  refine ⟨asciiHost, "Bash", unconfigured .notFound, shellAllowed ["Bash"], by decide +kernel, ?_⟩
  rintro ⟨_, framed⟩
  have read : (shellAllowed ["Bash"]).AutoApproves asciiHost ⟨.preToolUse, "Read", .null⟩ :=
    framed _ (show (autoApprovedBy _ _ _ _ _).isSome = true by decide +kernel)
  have dropped : ¬ (autoApprovedBy asciiHost (shellAllowed ["Bash"]).trustedConfig
      (shellAllowed ["Bash"]).trustedLegacy "Read" .null).isSome = true := by decide +kernel
  exact dropped read

end PolicyFiles

end Wisphive
