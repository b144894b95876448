import Mathlib.Data.List.Nodup
import Wisphive.ConfigUpdates
import Wisphive.Proofs.HookPolicy

/-! The configuration that the web page edits is the one that the daemon loads. What the
endpoint accepts as a patch is compared, field by field, with what the typed configuration
accepts of the merged file. -/

namespace Wisphive.UserConfig
open Foundation

variable {platform : HookPlatform} {members document : Json.Members} {value old : Json} {key : String} {bits : Nat}

def isFlag (value : Json) : Bool :=
  value.asBool?.isSome

def isNumber (bits : Nat) (value : Json) : Bool :=
  (optional (unsigned bits) value).isSome

def isLevel (value : Json) : Bool :=
  (optional AutoApproveLevel.fromValue value).isSome

def isTools (value : Json) : Bool :=
  (optional textsOf value).isSome

def isRules (value : Json) : Bool :=
  (optional toolRulesOf value).isSome

/-- The fields, each with the values that it accepts. -/
def schema : List (String × (Json → Bool)) :=
  [("notifications", isFlag), ("hook_timeout_secs", isNumber 64), ("agent_timeout_secs", isNumber 64),
    ("auto_approve_level", isLevel), ("auto_approve_add", isTools), ("auto_approve_remove", isTools),
    ("always_ask", isTools), ("always_ask_remove", isTools), ("auto_approve_dangerous", isFlag),
    ("codex_allow_foreign_hooks", isFlag), ("tool_rules", isRules), ("retention_max_rows", isNumber 64),
    ("retention_max_age_days", isNumber 64), ("log_retention_days", isNumber 64),
    ("retention_vacuum_max_mb", isNumber 64), ("archive_alert_max_mb", isNumber 64),
    ("disk_alert_free_mb", isNumber 64), ("audit_snapshot_limit", isNumber 32)]

theorem schema_keys : schema.map Prod.fst = modeledKeys := rfl

theorem fieldOr_bind {Value Next : Type} {default : Value} {parse : Json → Option Value} {field : Option Json}
    {next : Value → Option Next} {held : Prop} (rest : ∀ value, (next value).isSome = true ↔ held) :
    ((fieldOr default parse field).bind next).isSome = true ↔
      (∀ value, field = some value → (parse value).isSome = true) ∧ held := by
  cases field with
  | none => simpa [fieldOr] using rest default
  | some value =>
    cases parsed : parse value with
    | none => simp [fieldOr, parsed]
    | some held => simpa [fieldOr, parsed] using rest held

/-- The typed configuration is read if every field that is there is accepted. -/
theorem fromValue_isSome : (fromValue members).isSome = true ↔
    ∀ field ∈ schema, ∀ value, members.lookup field.1 = some value → field.2 value = true := by
  simp only [schema, List.forall_mem_cons]
  unfold fromValue
  repeat refine fieldOr_bind fun _ => ?_
  exact iff_of_true rfl (List.forall_mem_nil _)

theorem toolRule_isSome : (ToolRule.fromValue (.object members)).isSome = true ↔
    ∀ key ∈ ["deny_patterns", "allow_patterns"], ∀ value, members.lookup key = some value →
      (textsOf value).isSome = true := by
  simp only [List.forall_mem_cons]
  unfold ToolRule.fromValue
  repeat refine fieldOr_bind fun _ => ?_
  exact iff_of_true rfl (List.forall_mem_nil _)

theorem optional_isSome {Value : Type} {parse : Json → Option Value} :
    (optional parse value).isSome = true ↔ value = .null ∨ (parse value).isSome = true := by
  cases value <;> simp [optional]

theorem unsigned_isSome : (unsigned bits value).isSome = true ↔
    ∃ count : Nat, count < 2 ^ bits ∧ value = .number (.integer count) := by
  constructor
  · intro read
    match value, read with
    | .number (.integer count), read =>
      simp only [unsigned] at read
      split at read
      next bounds =>
        refine ⟨count.toNat, ?_, by rw [Int.toNat_of_nonneg bounds.1]⟩
        exact_mod_cast (Int.toNat_of_nonneg bounds.1).symm ▸ bounds.2
      next => cases read
  · rintro ⟨count, bound, rfl⟩
    have inside : (0 : Int) ≤ count ∧ (count : Int) < 2 ^ bits := ⟨Int.natCast_nonneg count, by exact_mod_cast bound⟩
    simp only [unsigned, if_pos inside, Option.isSome_some]

theorem variant_isSome {name : String} : (AutoApproveLevel.fromValue.variant name).isSome = true ↔
    ∃ level : AutoApproveLevel, name = level.display := by
  simp only [AutoApproveLevel.fromValue.variant, List.find?_isSome, decide_eq_true_eq]
  constructor
  · rintro ⟨level, _, named⟩
    exact ⟨level, named.symm⟩
  · rintro ⟨level, named⟩
    exact ⟨level, by cases level <;> decide, named.symm⟩

theorem mapM_isSome {Item Value : Type} {parse : Item → Option Value} {items : List Item} :
    (items.mapM parse).isSome = true ↔ ∀ item ∈ items, (parse item).isSome = true := by
  induction items with
  | nil => simp
  | cons item rest ih =>
    rw [List.mapM_cons, List.forall_mem_cons, ← ih]
    cases parse item with
    | none => simp
    | some value => cases rest.mapM parse <;> simp

theorem textsOf_isSome : (textsOf value).isSome = true ↔
    ∃ items, value = .array items ∧ ∀ item ∈ items, item.asString?.isSome = true := by
  cases value with
  | array items => simp [textsOf, mapM_isSome]
  | _ => simp [textsOf]

theorem toolRulesOf_isSome : (toolRulesOf value).isSome = true ↔
    ∃ rules, value = .object rules ∧ ∀ rule ∈ rules, (ToolRule.fromValue rule.2).isSome = true := by
  cases value with
  | object rules =>
    simp only [toolRulesOf, mapM_isSome, Json.object.injEq, exists_eq_left']
    refine forall₂_congr fun rule _ => ?_
    cases ToolRule.fromValue rule.2 <;> simp
  | _ => simp [toolRulesOf]

theorem textsOf_lastWins : textsOf (Json.lastWins value) = textsOf value := by
  cases value with
  | array items =>
    rw [Json.lastWins]
    induction items with
    | nil => rw [Json.lastItems]
    | cons item rest ih =>
      have head : (Json.lastWins item).asString? = item.asString? := by cases item <;> simp [Json.lastWins, Json.asString?]
      simp only [textsOf] at ih
      rw [Json.lastItems, textsOf, List.mapM_cons, head, ih, textsOf, List.mapM_cons]
  | _ => simp [Json.lastWins, textsOf]

/-- A key of the fields stands at most once. -/
theorem once_of_unrepeated {fields : List String} (unrepeated : UserConfig.unrepeated fields members = true)
    (named : key ∈ fields) : (members.map Prod.fst).count key ≤ 1 := by
  have distinct := of_decide_eq_true unrepeated
  have kept := List.nodup_iff_count_le_one.mp distinct key
  rwa [List.count_filter (by simpa using named)] at kept

theorem unrepeated_of_nodup {fields : List String} (distinct : (members.map Prod.fst).Nodup) :
    unrepeated fields members = true :=
  decide_eq_true (distinct.sublist List.filter_sublist)

theorem toolRule_lastWins
    (once : unrepeated ["deny_patterns", "allow_patterns"] (value.asObject?.getD []) = true)
    (read : (ToolRule.fromValue value).isSome = true) : (ToolRule.fromValue (Json.lastWins value)).isSome = true := by
  cases value with
  | object members =>
    rw [Json.lastWins, toolRule_isSome]
    rw [toolRule_isSome] at read
    intro key named value found
    have single : (members.map Prod.fst).count key ≤ 1 := once_of_unrepeated once named
    rw [Json.lookup_lastMembers single] at found
    obtain ⟨raw, held, rfl⟩ := Option.map_eq_some_iff.mp found
    rw [textsOf_lastWins]
    exact read key named raw held
  | array items =>
    match items, read with
    | [], _ => rfl
    | [deny], read => simpa [Json.lastWins, Json.lastItems, ToolRule.fromValue, textsOf_lastWins] using read
    | [deny, allow], read => simpa [Json.lastWins, Json.lastItems, ToolRule.fromValue, textsOf_lastWins] using read
    | _ :: _ :: _ :: _, read => cases read
  | null | bool _ | number _ | string _ => cases read

theorem isFlag_lastWins (read : isFlag value = true) : isFlag (Json.lastWins value) = true := by
  match value, read with
  | .bool _, _ => rfl

theorem isNumber_lastWins (read : isNumber bits value = true) : isNumber bits (Json.lastWins value) = true := by
  match value, read with
  | .null, _ => rfl
  | .number _, read => exact read

theorem isLevel_lastWins (read : isLevel value = true) : isLevel (Json.lastWins value) = true := by
  cases value with
  | object members =>
    match members, read with
    | [(name, .null)], read => simpa [Json.lastWins, Json.lastMembers] using read
  | null | string _ => exact read
  | bool _ | number _ | array _ => cases read

theorem isTools_lastWins (read : isTools value = true) : isTools (Json.lastWins value) = true := by
  unfold isTools at read ⊢
  rw [optional_isSome] at read ⊢
  rw [textsOf_lastWins]
  exact read.imp_left fun absent => by rw [absent, Json.lastWins]

theorem isRules_lastWins (once : rulesUnrepeated (some value) = true) (read : isRules value = true) :
    isRules (Json.lastWins value) = true := by
  unfold isRules at read ⊢
  rw [optional_isSome, toolRulesOf_isSome] at read ⊢
  rcases read with rfl | ⟨rules, rfl, read⟩
  · exact .inl (by rw [Json.lastWins])
  · refine .inr ⟨Json.lastMembers rules, by rw [Json.lastWins], ?_⟩
    intro rule member
    obtain ⟨raw, held, same⟩ := Json.of_mem_lastMembers member
    rw [← same]
    exact toolRule_lastWins (List.all_eq_true.mp once raw held) (read raw held)

/-- A document that the daemon reads is still read once its repeated keys are gone. -/
theorem fromValue_lastMembers (once : unrepeated modeledKeys members = true)
    (rules : rulesUnrepeated (members.lookup "tool_rules") = true) (read : (fromValue members).isSome = true) :
    (fromValue (Json.lastMembers members)).isSome = true := by
  have settled : ∀ field ∈ schema, ∀ value, (field.1 = "tool_rules" → rulesUnrepeated (some value) = true) →
      field.2 value = true → field.2 (Json.lastWins value) = true := by
    simp only [schema, List.forall_mem_cons]
    exact ⟨fun _ _ => isFlag_lastWins, fun _ _ => isNumber_lastWins, fun _ _ => isNumber_lastWins,
      fun _ _ => isLevel_lastWins, fun _ _ => isTools_lastWins, fun _ _ => isTools_lastWins,
      fun _ _ => isTools_lastWins, fun _ _ => isTools_lastWins, fun _ _ => isFlag_lastWins,
      fun _ _ => isFlag_lastWins, fun _ once => isRules_lastWins (once trivial), fun _ _ => isNumber_lastWins,
      fun _ _ => isNumber_lastWins, fun _ _ => isNumber_lastWins, fun _ _ => isNumber_lastWins,
      fun _ _ => isNumber_lastWins, fun _ _ => isNumber_lastWins, fun _ _ => isNumber_lastWins,
      List.forall_mem_nil _⟩
  rw [fromValue_isSome] at read ⊢
  intro field member value found
  have named : field.1 ∈ modeledKeys := schema_keys ▸ List.mem_map_of_mem member
  rw [Json.lookup_lastMembers (once_of_unrepeated once named)] at found
  obtain ⟨raw, held, rfl⟩ := Option.map_eq_some_iff.mp found
  refine settled field member raw ?_ (read field member raw held)
  intro ruled
  rw [← held, ruled]
  exact rules

section Validation

private def flagNames : List String :=
  ["notifications", "auto_approve_stop", "auto_approve_user_prompt", "auto_approve_config_change",
    "auto_approve_lifecycle", "auto_approve_dangerous"]

private def numberNames : List String :=
  ["hook_timeout_secs", "agent_timeout_secs", "retention_max_rows", "retention_max_age_days", "log_retention_days",
    "retention_vacuum_max_mb", "archive_alert_max_mb", "disk_alert_free_mb", "audit_snapshot_limit"]

private def toolNames : List String :=
  ["auto_approve_add", "auto_approve_remove", "auto_approve", "always_ask", "always_ask_remove"]

theorem ok_ite {held : Prop} [Decidable held] {reason : String} :
    (if held then Except.ok () else Except.error reason) = Except.ok () ↔ held := by
  by_cases true : held <;> simp [true]

theorem validated_flag (named : key ∈ flagNames) :
    validateField platform key value = .ok () ↔ value = .null ∨ isFlag value = true := by
  unfold flagNames at named
  unfold validateField
  rw [if_pos named]
  cases value <;> simp [isFlag, Json.asBool?]

theorem validated_number (named : key ∈ numberNames) :
    validateField platform key value = .ok () ↔ isNumber 64 value = true := by
  have unflagged := (by decide : ∀ key ∈ numberNames, key ∉ flagNames) key named
  unfold numberNames at named
  unfold flagNames at unflagged
  unfold validateField isNumber
  rw [if_neg unflagged, if_pos named, optional_isSome]
  by_cases absent : value = .null
  · simp [absent]
  · cases read : (unsigned 64 value).isSome <;> simp [absent]

theorem validated_level : validateField platform "auto_approve_level" value = .ok () ↔
    value = .null ∨ ∃ text, value = .string text ∧ (AutoApproveLevel.fromStr platform text).isSome = true := by
  cases value with
  | string text => cases read : (AutoApproveLevel.fromStr platform text).isSome <;> simp [validateField, Json.asString?, read]
  | _ => simp [validateField, Json.asString?]

theorem validated_tools (named : key ∈ toolNames) :
    validateField platform key value = .ok () ↔ isTools value = true := by
  have other := (by decide : ∀ key ∈ toolNames, key ∉ flagNames ∧ key ∉ numberNames ∧ key ≠ "auto_approve_level")
    key named
  unfold toolNames at named
  unfold flagNames numberNames at other
  unfold validateField isTools
  rw [if_neg other.1, if_neg other.2.1, if_neg other.2.2, if_pos named, optional_isSome, textsOf_isSome]
  cases value with
  | array items =>
    simp only [Json.asArray?, reduceCtorEq, if_false, false_or, Json.array.injEq, exists_eq_left']
    rw [ok_ite, List.all_eq_true]
  | _ => simp [Json.asArray?]

theorem validated_rules : validateField platform "tool_rules" value = .ok () ↔
    value = .null ∨ ∃ rules, value = .object rules ∧
      ∀ rule ∈ rules, rule.2 = .null ∨ (ToolRule.fromValue rule.2).isSome = true := by
  cases value with
  | object rules =>
    have read : validateField platform "tool_rules" (.object rules) =
        if rules.all fun rule => rule.2 = .null || (ToolRule.fromValue rule.2).isSome then .ok ()
        else .error "tool_rules schema is invalid" := by
      simp [validateField, Json.asObject?]
    rw [read, ok_ite, List.all_eq_true]
    simp only [Bool.or_eq_true, decide_eq_true_eq, reduceCtorEq, false_or, Json.object.injEq, exists_eq_left']
  | _ => simp [validateField, Json.asObject?]

theorem validated_foreign : validateField platform "codex_allow_foreign_hooks" value = .ok () ↔ value = .null := by
  simp [validateField]

theorem forM_ok {Item Fault : Type} {check : Item → Except Fault Unit} {items : List Item} :
    items.forM check = .ok () ↔ ∀ item ∈ items, check item = .ok () := by
  induction items with
  | nil => simp [pure, Except.pure]
  | cons item rest ih =>
    rw [List.forall_mem_cons, ← ih, List.forM]
    cases check item <;> simp [bind, Except.bind]

end Validation

/-- A rule that is merged into an accepted one is accepted. -/
theorem toolRule_merged {patch : Json} (distinct : patch.Distinct)
    (held : old = .null ∨ (ToolRule.fromValue old).isSome = true)
    (read : (ToolRule.fromValue patch).isSome = true) :
    (ToolRule.fromValue (Json.mergePatch old patch)).isSome = true := by
  cases patch with
  | object patch =>
    rw [Json.Distinct] at distinct
    rw [toolRule_isSome] at read
    rw [Json.mergePatch, toolRule_isSome]
    intro key named value found
    rw [Json.lookup_mergeMembers distinct.1] at found
    cases given : patch.lookup key with
    | none =>
      rw [given] at found
      cases old with
      | object members =>
        have accepted := held.resolve_left (by simp)
        exact toolRule_isSome.mp accepted key named value found
      | null | bool _ | number _ | string _ | array _ => cases found
    | some update =>
      have texts := read key named update given
      obtain ⟨items, rfl, _⟩ := textsOf_isSome.mp texts
      rw [given] at found
      cases found
      rwa [Json.mergePatch_scalar rfl]
  | null | bool _ | number _ | string _ | array _ => rwa [Json.mergePatch_scalar rfl]

/-- Rules that the endpoint accepts are loaded once they are merged into accepted ones. -/
theorem isRules_merged (distinct : value.Distinct) (keys : old.Distinct)
    (held : old = .null ∨ isRules old = true) (given : value ≠ .null)
    (valid : validateField platform "tool_rules" value = .ok ()) : isRules (Json.mergePatch old value) = true := by
  obtain ⟨patch, rfl, rules⟩ := (validated_rules.mp valid).resolve_left given
  have oldRules : ∀ rule ∈ old.asObject?.getD [], (ToolRule.fromValue rule.2).isSome = true := by
    intro rule member
    cases old with
    | object members =>
      have accepted := held.resolve_left (by simp)
      unfold isRules at accepted
      rw [optional_isSome, toolRulesOf_isSome] at accepted
      obtain ⟨_, same, accepted⟩ := accepted.resolve_left (by simp)
      cases same
      exact accepted rule member
    | null | bool _ | number _ | string _ | array _ => cases member
  have merged := Json.distinct_mergePatch keys (.object patch) distinct
  rw [Json.Distinct] at distinct
  rw [Json.mergePatch] at merged ⊢
  rw [Json.Distinct] at merged
  unfold isRules
  rw [optional_isSome, toolRulesOf_isSome]
  refine .inr ⟨_, rfl, ?_⟩
  rintro ⟨tool, rule⟩ member
  have found := Json.lookup_of_mem merged.1 member
  cases updated : patch.lookup tool with
  | none =>
    rw [Json.lookup_mergeMembers distinct.1, updated] at found
    exact oldRules _ (Json.mem_of_lookup found)
  | some update =>
    have entry := Json.mem_of_lookup updated
    by_cases deleted : update = .null
    · rw [Json.lookup_mergeMembers distinct.1, updated, deleted] at found
      cases found
    · rw [Json.lookup_mergeMembers_of_set distinct.1 updated deleted] at found
      cases found
      refine toolRule_merged (Json.distinctMembers_iff.mp distinct.2 _ entry) ?_ ((rules _ entry).resolve_left deleted)
      cases before : (old.asObject?.getD []).lookup tool with
      | none => exact .inl rfl
      | some held => exact .inr (oldRules _ (Json.mem_of_lookup before))

/-- A patched value that the daemon can load: the level by its lowercase name, and a limit of
32 bits. -/
structure LoadsField (key : String) (value : Json) : Prop where
  level : key = "auto_approve_level" → ∃ level : AutoApproveLevel, value = .string level.display
  limit : key = "audit_snapshot_limit" → ∃ count : Nat, count < 2 ^ 32 ∧ value = .number (.integer count)

theorem LoadsField.of_other (level : key ≠ "auto_approve_level") (limit : key ≠ "audit_snapshot_limit") :
    LoadsField key value :=
  ⟨fun same => absurd same level, fun same => absurd same limit⟩

theorem isNumber_plain (read : isNumber bits value = true) : value.asObject? = none := by
  match value, read with
  | .null, _ | .number _, _ => rfl

theorem isTools_plain (read : isTools value = true) : value.asObject? = none := by
  match value, read with
  | .null, _ | .array _, _ => rfl

/-- What becomes of one field that a validated patch sets. -/
theorem merged_field (distinct : value.Distinct) (keys : old.Distinct) (given : value ≠ .null) :
    ∀ field ∈ schema, validateField platform field.1 value = .ok () → (old = .null ∨ field.2 old = true) →
      (field.2 (Json.mergePatch old value) = true ↔ LoadsField field.1 value) := by
  have flag : ∀ key, key ∈ flagNames → key ≠ "auto_approve_level" → key ≠ "audit_snapshot_limit" →
      validateField platform key value = .ok () → old = .null ∨ isFlag old = true →
      (isFlag (Json.mergePatch old value) = true ↔ LoadsField key value) := by
    intro key named level limit valid _
    have flagged := ((validated_flag named).mp valid).resolve_left given
    rw [Json.mergePatch_scalar (by cases value <;> first | rfl | cases flagged)]
    exact iff_of_true flagged (.of_other level limit)
  have number : ∀ key, key ∈ numberNames → key ≠ "auto_approve_level" → key ≠ "audit_snapshot_limit" →
      validateField platform key value = .ok () → old = .null ∨ isNumber 64 old = true →
      (isNumber 64 (Json.mergePatch old value) = true ↔ LoadsField key value) := by
    intro key named level limit valid _
    have counted := (validated_number named).mp valid
    rw [Json.mergePatch_scalar (isNumber_plain counted)]
    exact iff_of_true counted (.of_other level limit)
  have tools : ∀ key, key ∈ toolNames → key ≠ "auto_approve_level" → key ≠ "audit_snapshot_limit" →
      validateField platform key value = .ok () → old = .null ∨ isTools old = true →
      (isTools (Json.mergePatch old value) = true ↔ LoadsField key value) := by
    intro key named level limit valid _
    have listed := (validated_tools named).mp valid
    rw [Json.mergePatch_scalar (isTools_plain listed)]
    exact iff_of_true listed (.of_other level limit)
  simp only [schema, List.forall_mem_cons]
  refine ⟨flag _ (by decide) (by decide) (by decide), number _ (by decide) (by decide) (by decide),
    number _ (by decide) (by decide) (by decide), ?level, tools _ (by decide) (by decide) (by decide),
    tools _ (by decide) (by decide) (by decide), tools _ (by decide) (by decide) (by decide),
    tools _ (by decide) (by decide) (by decide), flag _ (by decide) (by decide) (by decide), ?foreign, ?rules,
    number _ (by decide) (by decide) (by decide), number _ (by decide) (by decide) (by decide),
    number _ (by decide) (by decide) (by decide), number _ (by decide) (by decide) (by decide),
    number _ (by decide) (by decide) (by decide), number _ (by decide) (by decide) (by decide), ?limit,
    List.forall_mem_nil _⟩
  case level =>
    intro valid _
    obtain ⟨text, rfl, _⟩ := (validated_level.mp valid).resolve_left given
    rw [Json.mergePatch_scalar rfl]
    constructor
    · intro read
      obtain ⟨level, named⟩ := variant_isSome.mp ((optional_isSome.mp read).resolve_left given)
      exact ⟨fun _ => ⟨level, by rw [named]⟩, fun same => absurd same (by decide)⟩
    · intro loads
      obtain ⟨level, named⟩ := loads.level rfl
      cases named
      exact optional_isSome.mpr (.inr (variant_isSome.mpr ⟨level, rfl⟩))
  case foreign =>
    intro valid _
    exact absurd (validated_foreign.mp valid) given
  case rules =>
    intro valid held
    exact iff_of_true (isRules_merged distinct keys held given valid) (.of_other (by decide) (by decide))
  case limit =>
    intro valid _
    have counted := (validated_number (by decide)).mp valid
    rw [Json.mergePatch_scalar (isNumber_plain counted)]
    constructor
    · intro read
      exact ⟨fun same => absurd same (by decide),
        fun _ => unsigned_isSome.mp ((optional_isSome.mp read).resolve_left given)⟩
    · intro loads
      exact optional_isSome.mpr (.inr (unsigned_isSome.mpr (loads.limit rfl)))

theorem fromDocument_isSome : (fromDocument members).isSome = true ↔
    (unrepeated modeledKeys members = true ∧ rulesUnrepeated (members.lookup "tool_rules") = true) ∧
      (fromValue members).isSome = true := by
  unfold fromDocument
  split
  next once => rw [Option.isSome_map, and_iff_right once]
  next repeated => exact iff_of_false Bool.false_ne_true fun read => repeated read.1

/-- Where the keys differ at every depth, nothing stands twice. -/
theorem fromDocument_of_distinct (distinct : (Json.object members).Distinct) :
    (fromDocument members).isSome = true ↔ (fromValue members).isSome = true := by
  rw [Json.Distinct] at distinct
  rw [fromDocument_isSome]
  refine and_iff_right ⟨unrepeated_of_nodup distinct.1, ?_⟩
  cases found : members.lookup "tool_rules" with
  | none => rfl
  | some value =>
    have inner := Json.distinctMembers_iff.mp distinct.2 _ (Json.mem_of_lookup found)
    cases value with
    | object rules =>
      rw [Json.Distinct] at inner
      refine List.all_eq_true.mpr fun rule member => unrepeated_of_nodup ?_
      have fields := Json.distinctMembers_iff.mp inner.2 rule member
      cases held : rule.2 with
      | object members =>
        rw [held, Json.Distinct] at fields
        exact fields.1
      | null | bool _ | number _ | string _ | array _ => exact List.nodup_nil
    | null | bool _ | number _ | string _ | array _ => rfl

/-- A patch whose level, where it sets one, is a lowercase name, and whose snapshot limit has
32 bits. -/
structure Loadable (patch : Json) : Prop where
  level : ∀ value, patch.get? "auto_approve_level" = some value → value ≠ .null →
    ∃ level : AutoApproveLevel, value = .string level.display
  limit : ∀ value, patch.get? "audit_snapshot_limit" = some value → value ≠ .null →
    ∃ count : Nat, count < 2 ^ 32 ∧ value = .number (.integer count)

theorem loadable_iff : Loadable value ↔
    ∀ field ∈ schema, ∀ update, value.get? field.1 = some update → update ≠ .null → LoadsField field.1 update := by
  constructor
  · intro loadable field _ update found given
    refine ⟨fun same => loadable.level update ?_ given, fun same => loadable.limit update ?_ given⟩ <;> rw [← same, found]
  · intro loads
    refine ⟨fun update found given => (loads ("auto_approve_level", isLevel) ?_ update found given).level rfl,
      fun update found given => (loads ("audit_snapshot_limit", isNumber 32) ?_ update found given).limit rfl⟩ <;>
      simp [schema]

/-- The merged document is loaded if and only if the accepted patch is loadable. -/
theorem merged_loads {patch : Json.Members} (distinct : (Json.object members).Distinct)
    (keys : (Json.object patch).Distinct) (held : (fromValue members).isSome = true)
    (valid : validateConfigJson platform (.object patch) = .ok ()) :
    (fromDocument (Json.mergeMembers members patch)).isSome = true ↔ Loadable (.object patch) := by
  have merged := Json.distinct_mergePatch distinct (.object patch) keys
  rw [Json.mergePatch] at merged
  change (Json.object (Json.mergeMembers members patch)).Distinct at merged
  rw [fromDocument_of_distinct merged, fromValue_isSome, loadable_iff]
  rw [fromValue_isSome] at held
  have validated := forM_ok.mp valid
  rw [Json.Distinct] at distinct keys
  refine forall₂_congr fun field member => ?_
  change _ ↔ ∀ update, patch.lookup field.1 = some update → _
  cases given : patch.lookup field.1 with
  | none =>
    rw [Json.lookup_mergeMembers keys.1, given]
    exact iff_of_true (held field member) (by simp)
  | some update =>
    have entry := Json.mem_of_lookup given
    have inner := Json.distinctMembers_iff.mp keys.2 _ entry
    have oldField : ((members.lookup field.1).getD .null) = .null ∨
        field.2 ((members.lookup field.1).getD .null) = true := by
      cases before : members.lookup field.1 with
      | none => exact .inl rfl
      | some value => exact .inr (held field member value before)
    by_cases deleted : update = .null
    · rw [Json.lookup_mergeMembers keys.1, given, deleted]
      simp
    · rw [Json.lookup_mergeMembers_of_set keys.1 given deleted]
      have keyed : ((members.lookup field.1).getD .null).Distinct := Json.distinct_lookup distinct.2
      have step := merged_field inner keyed deleted field member (validated _ entry) oldField
      simpa [deleted] using step

/-- A document that the endpoint takes back: it leaves out the flag that the endpoint does not
know, and its level is no object. -/
structure Served (document : Json.Members) : Prop where
  foreign : "codex_allow_foreign_hooks" ∉ document.map Prod.fst
  level : ∀ value, document.lookup "auto_approve_level" = some value → value.asObject? = none

theorem fromStr_display {level : AutoApproveLevel}
    (keeps : ∀ level : AutoApproveLevel, platform.toLowercase level.display = level.display) :
    AutoApproveLevel.fromStr platform level.display = some level := by
  unfold AutoApproveLevel.fromStr
  rw [keeps]
  cases level <;> rfl

/-- What the endpoint makes of one field with a value that the daemon accepts. -/
theorem served_field (keeps : ∀ level : AutoApproveLevel, platform.toLowercase level.display = level.display) :
    ∀ field ∈ schema, field.2 value = true → (validateField platform field.1 value = .ok () ↔
      field.1 ≠ "codex_allow_foreign_hooks" ∧ (field.1 = "auto_approve_level" → value.asObject? = none)) := by
  have flag : ∀ key, key ∈ flagNames → key ≠ "codex_allow_foreign_hooks" → key ≠ "auto_approve_level" →
      isFlag value = true → (validateField platform key value = .ok () ↔
        key ≠ "codex_allow_foreign_hooks" ∧ (key = "auto_approve_level" → value.asObject? = none)) :=
    fun key named foreign level read =>
      iff_of_true ((validated_flag named).mpr (.inr read)) ⟨foreign, fun same => absurd same level⟩
  have number : ∀ key, key ∈ numberNames → key ≠ "codex_allow_foreign_hooks" → key ≠ "auto_approve_level" →
      isNumber 64 value = true → (validateField platform key value = .ok () ↔
        key ≠ "codex_allow_foreign_hooks" ∧ (key = "auto_approve_level" → value.asObject? = none)) :=
    fun key named foreign level read =>
      iff_of_true ((validated_number named).mpr read) ⟨foreign, fun same => absurd same level⟩
  have tools : ∀ key, key ∈ toolNames → key ≠ "codex_allow_foreign_hooks" → key ≠ "auto_approve_level" →
      isTools value = true → (validateField platform key value = .ok () ↔
        key ≠ "codex_allow_foreign_hooks" ∧ (key = "auto_approve_level" → value.asObject? = none)) :=
    fun key named foreign level read =>
      iff_of_true ((validated_tools named).mpr read) ⟨foreign, fun same => absurd same level⟩
  simp only [schema, List.forall_mem_cons]
  refine ⟨flag _ (by decide) (by decide) (by decide), number _ (by decide) (by decide) (by decide),
    number _ (by decide) (by decide) (by decide), ?level, tools _ (by decide) (by decide) (by decide),
    tools _ (by decide) (by decide) (by decide), tools _ (by decide) (by decide) (by decide),
    tools _ (by decide) (by decide) (by decide), flag _ (by decide) (by decide) (by decide), ?foreign, ?rules,
    number _ (by decide) (by decide) (by decide), number _ (by decide) (by decide) (by decide),
    number _ (by decide) (by decide) (by decide), number _ (by decide) (by decide) (by decide),
    number _ (by decide) (by decide) (by decide), number _ (by decide) (by decide) (by decide), ?limit,
    List.forall_mem_nil _⟩
  case level =>
    intro read
    rw [validated_level]
    match value, read with
    | .null, _ => simp [Json.asObject?]
    | .string text, read =>
      have named : (AutoApproveLevel.fromValue.variant text).isSome = true := by
        simpa [isLevel, optional, AutoApproveLevel.fromValue] using read
      obtain ⟨level, rfl⟩ := variant_isSome.mp named
      simp [Json.asObject?, fromStr_display keeps]
    | .object members, _ => simp [Json.asObject?]
  case foreign =>
    intro read
    rw [validated_foreign]
    match value, read with
    | .bool _, _ => simp
  case rules =>
    intro read
    have accepted : validateField platform "tool_rules" value = .ok () := by
      rw [validated_rules]
      refine (optional_isSome.mp read).imp_right fun parsed => ?_
      obtain ⟨rules, rfl, accepted⟩ := toolRulesOf_isSome.mp parsed
      exact ⟨rules, rfl, fun rule member => .inr (accepted rule member)⟩
    exact iff_of_true accepted ⟨by decide, fun same => absurd same (by decide)⟩
  case limit =>
    intro read
    have accepted : isNumber 64 value = true := by
      refine optional_isSome.mpr ((optional_isSome.mp read).imp_right fun counted => ?_)
      obtain ⟨count, bound, rfl⟩ := unsigned_isSome.mp counted
      exact unsigned_isSome.mpr ⟨count, Nat.lt_trans bound (by decide), rfl⟩
    exact iff_of_true ((validated_number (by decide)).mpr accepted) ⟨by decide, fun same => absurd same (by decide)⟩

theorem served_accepted (keeps : ∀ level : AutoApproveLevel, platform.toLowercase level.display = level.display)
    (read : (fromDocument document).isSome = true) (known : ∀ entry ∈ document, entry.1 ∈ modeledKeys) :
    validateConfigJson platform (Json.lastWins (.object document)) = .ok () ↔ Served document := by
  obtain ⟨⟨once, rules⟩, held⟩ := fromDocument_isSome.mp read
  have settled := fromValue_isSome.mp (fromValue_lastMembers once rules held)
  have distinct := Json.distinct_lastMembers document
  have fieldOf : ∀ entry ∈ Json.lastMembers document, ∃ field ∈ schema, field.1 = entry.1 ∧ field.2 entry.2 = true := by
    intro entry member
    obtain ⟨raw, given, same⟩ := Json.of_mem_lastMembers member
    have named := known raw given
    rw [← schema_keys] at named
    obtain ⟨field, listed, key⟩ := List.mem_map.mp named
    have key : field.1 = entry.1 := by rw [key, ← same]
    refine ⟨field, listed, key, settled field listed entry.2 ?_⟩
    rw [key]
    exact Json.lookup_of_mem distinct.1 member
  rw [Json.lastWins, validateConfigJson]
  simp only [Json.asObject?, forM_ok]
  constructor
  · intro valid
    constructor
    · intro foreign
      obtain ⟨entry, member, same⟩ := List.mem_map.mp (Json.mem_keys_lastMembers.mpr foreign)
      obtain ⟨field, listed, key, accepted⟩ := fieldOf entry member
      have served := (served_field keeps field listed accepted).mp (key ▸ valid entry member)
      exact served.1 (key.trans same)
    · intro raw found
      have single : (document.map Prod.fst).count "auto_approve_level" ≤ 1 := once_of_unrepeated once (by decide)
      have kept := Json.lookup_lastMembers single
      rw [found] at kept
      have member := Json.mem_of_lookup kept
      obtain ⟨field, listed, key, accepted⟩ := fieldOf _ member
      have served := (served_field keeps field listed accepted).mp (key ▸ valid _ member)
      have plain := served.2 key
      cases raw <;> first | rfl | cases plain
  · intro served entry member
    obtain ⟨field, listed, key, accepted⟩ := fieldOf entry member
    rw [← key]
    refine (served_field keeps field listed accepted).mpr ⟨?_, ?_⟩
    · intro foreign
      apply served.foreign
      rw [← Json.mem_keys_lastMembers, ← foreign, key]
      exact List.mem_map_of_mem member
    · intro leveled
      have single : (document.map Prod.fst).count "auto_approve_level" ≤ 1 := once_of_unrepeated once (by decide)
      have kept := Json.lookup_lastMembers single
      rw [← leveled, key, Json.lookup_of_mem distinct.1 member] at kept
      obtain ⟨raw, found, same⟩ := Option.map_eq_some_iff.mp kept.symm
      have plain := served.level raw (by rw [← leveled, key, found])
      rw [← same]
      cases raw <;> first | rfl | cases plain

theorem trusted_read {effectiveUid : Nat} {file : StoredFile} {value : Option Json}
    (trusted : readTrusted effectiveUid file = .ok value) : file.read = .contents value := by
  unfold readTrusted at trusted
  repeat' split at trusted
  all_goals cases trusted
  assumption

/-- The file of a loaded configuration. -/
theorem loaded_file {effectiveUid : Nat} {file : StoredFile} (loads : (loadUserConfig effectiveUid file).isSome = true) :
    ∃ document, file.read = .contents (some (.object document)) ∧ (fromDocument document).isSome = true := by
  unfold loadUserConfig trustedConfigJson at loads
  cases trusted : readTrusted effectiveUid file with
  | error _ => rw [trusted] at loads; cases loads
  | ok value =>
    rw [trusted] at loads
    match value, loads with
    | some (.object document), loads => exact ⟨document, trusted_read trusted, loads⟩

/-- A file that the daemon wrote is trusted. -/
theorem readTrusted_written {effectiveUid : Nat} :
    readTrusted effectiveUid (writeConfigAtomic effectiveUid value) = .ok (some value) := by
  simp [readTrusted, writeConfigAtomic]

theorem loadUserConfig_written {effectiveUid : Nat} :
    loadUserConfig effectiveUid (writeConfigAtomic effectiveUid (.object members)) = fromDocument members := by
  rw [loadUserConfig, trustedConfigJson, readTrusted_written]

/-- An accepted edit of a loaded configuration is stored, and the daemon loads the result if and
only if the patch is loadable. What the daemon loads is accepted as a patch if and only if it is
of the served form. -/
theorem config_edits_load_iff (platform : HookPlatform)
    (keeps : ∀ level : AutoApproveLevel, platform.toLowercase level.display = level.display) :
    (∀ (files : PolicyFiles) (body : ParsedBody), (loadUserConfig files.effectiveUid files.config).isSome = true →
      validateConfigJson platform body.value = .ok () →
      ∃ after, (ConfigWriter.putConfig body).update platform { files with config := files.config.parsed } = .ok after ∧
        ((loadUserConfig files.effectiveUid after.config).isSome = true ↔ Loadable body.value)) ∧
    ∀ document : Json.Members, (fromDocument document).isSome = true → (∀ entry ∈ document, entry.1 ∈ modeledKeys) →
      (validateConfigJson platform (Json.lastWins (.object document)) = .ok () ↔ Served document) := by
  refine ⟨?_, fun document read known => served_accepted keeps read known⟩
  rintro files ⟨value, keys⟩ loads valid
  obtain ⟨document, contents, read⟩ := loaded_file loads
  obtain ⟨⟨once, rules⟩, held⟩ := fromDocument_isSome.mp read
  match value, keys, valid with
  | .object patch, keys, valid =>
    have distinct : (Json.object (Json.lastMembers document)).Distinct := by
      rw [Json.Distinct]
      exact Json.distinct_lastMembers document
    have stored : (ConfigWriter.putConfig ⟨.object patch, keys⟩).update platform
        { files with config := files.config.parsed } =
          .ok { files with
            config := writeConfigAtomic files.effectiveUid
              (.object (Json.mergeMembers (Json.lastMembers document) patch)) } := by
      have parsed : files.config.parsed.read = .contents (some (.object (Json.lastMembers document))) := by
        simp [StoredFile.parsed, contents, Json.lastWins]
      simp [ConfigWriter.update, ConfigWriter.validate, valid, updateJson, parsed, updateJson.finish, ConfigWriter.edit,
        Json.mergePatch, Json.asObject?, Except.map, Except.mapError]
    refine ⟨_, stored, ?_⟩
    rw [loadUserConfig_written]
    exact merged_loads distinct keys (fromValue_lastMembers once rules held) valid

private def fileOf (document : Json.Members) : PolicyFiles where
  effectiveUid := 501
  config := writeConfigAtomic 501 (.object document)
  legacy := { kind := .regular, owner := 501, mode := 0o600, read := .notFound }

private def patchOf (key : String) (value : Json) (distinct : (Json.object [(key, value)]).Distinct) : ParsedBody where
  value := .object [(key, value)]
  distinct := distinct

private theorem distinct_text {key text : String} : (Json.object [(key, .string text)]).Distinct := by
  simp [Json.Distinct, Json.DistinctMembers]

private theorem asciiHost_keeps (level : AutoApproveLevel) :
    HookPolicy.asciiHost.toLowercase level.display = level.display := by
  cases level <;> decide +kernel

theorem config_edits_load_iff_ascii :
    (∃ after, (ConfigWriter.putConfig (patchOf "auto_approve_level" (.string "write") distinct_text)).update
        HookPolicy.asciiHost { fileOf [("hook_timeout_secs", .number (.integer 60))] with
          config := (fileOf [("hook_timeout_secs", .number (.integer 60))]).config.parsed } = .ok after ∧
      ((loadUserConfig 501 after.config).isSome = true ↔
        Loadable (.object [("auto_approve_level", .string "write")]))) ∧
    (validateConfigJson HookPolicy.asciiHost (Json.lastWins (.object [("always_ask", .array [.string "Bash"])])) = .ok () ↔
      Served [("always_ask", .array [.string "Bash"])]) := by
  obtain ⟨loads, served⟩ := config_edits_load_iff HookPolicy.asciiHost asciiHost_keeps
  constructor
  · exact loads (fileOf [("hook_timeout_secs", .number (.integer 60))])
      (patchOf "auto_approve_level" (.string "write") distinct_text) (by decide +kernel) (by decide +kernel)
  · exact served [("always_ask", .array [.string "Bash"])] (by decide +kernel) (by decide +kernel)

/-- The endpoint accepts the level `exec`, with which the file is no longer parsed, and it
refuses a flag that the daemon reads. -/
theorem exec_level_unloadable :
    (¬ ∀ (platform : HookPlatform) (files : PolicyFiles) (body : ParsedBody),
      (loadUserConfig files.effectiveUid files.config).isSome = true →
      validateConfigJson platform body.value = .ok () →
      ∃ after, (ConfigWriter.putConfig body).update platform { files with config := files.config.parsed } = .ok after ∧
        (loadUserConfig files.effectiveUid after.config).isSome = true) ∧
    ¬ ∀ (platform : HookPlatform) (document : Json.Members), (fromDocument document).isSome = true →
      (∀ entry ∈ document, entry.1 ∈ modeledKeys) →
      validateConfigJson platform (Json.lastWins (.object document)) = .ok () := by
  constructor
  · intro claimed
    obtain ⟨after, stored, loads⟩ := claimed HookPolicy.asciiHost (fileOf [])
      (patchOf "auto_approve_level" (.string "exec") distinct_text) (by decide +kernel) (by decide +kernel)
    have written : (ConfigWriter.putConfig (patchOf "auto_approve_level" (.string "exec") distinct_text)).update
        HookPolicy.asciiHost { fileOf [] with config := (fileOf []).config.parsed } =
          .ok (fileOf [("auto_approve_level", .string "exec")]) := by decide +kernel
    cases written.symm.trans stored
    exact absurd loads (by decide +kernel)
  · intro claimed
    have accepted := claimed HookPolicy.asciiHost [("codex_allow_foreign_hooks", .bool true)]
      (by decide +kernel) (by decide +kernel)
    exact absurd accepted (by decide +kernel)

end Wisphive.UserConfig
