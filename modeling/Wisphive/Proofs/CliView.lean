import Wisphive.ConfigUpdates
import Wisphive.Proofs.ConfigLoading

/-! Where the command line's account of the policy is the hook's. The two read one file, the
one as a typed configuration and the other field by field. -/

namespace Wisphive.CliView
open Foundation HookPolicy

variable {platform : HookPlatform} {members document : Json.Members} {config : UserConfig} {key toolName : String}
  {legacy : Option Json} {call : HookCall}

theorem mem_dedup {names : List String} {name : String} : name ∈ dedup names ↔ name ∈ names := by
  fun_induction dedup names with
  | case1 => rfl
  | case2 => rfl
  | case3 first rest ih => simp [ih]
  | case4 first next rest differ ih => simp [ih]

theorem mem_effectiveAlwaysAsk : toolName ∈ effectiveAlwaysAsk config ↔
    (toolName ∈ defaultAlwaysAsk ∨ toolName ∈ config.alwaysAsk.getD []) ∧ toolName ∉ config.alwaysAskRemove.getD [] := by
  simp only [effectiveAlwaysAsk, mem_dedup, List.mem_filter, List.mem_append, decide_eq_true_eq]

theorem approves_iff : (autoApproveStatus config).approves toolName = true ↔
    ((toolName ∈ allKnownTools ∧ (config.autoApproveLevel.getD .read).includes toolName = true) ∨
      toolName ∈ config.autoApproveAdd.getD []) ∧ toolName ∉ config.autoApproveRemove.getD [] := by
  simp [AutoApproveStatus.approves, autoApproveStatus]

/-- The typed fields of the policy, each with its text in the file. -/
structure PolicyRead (members : Json.Members) (config : UserConfig) : Prop where
  level : fieldOr none (optional AutoApproveLevel.fromValue) (members.lookup "auto_approve_level") =
    some config.autoApproveLevel
  added : fieldOr none (optional textsOf) (members.lookup "auto_approve_add") = some config.autoApproveAdd
  removed : fieldOr none (optional textsOf) (members.lookup "auto_approve_remove") = some config.autoApproveRemove
  asked : fieldOr none (optional textsOf) (members.lookup "always_ask") = some config.alwaysAsk
  released : fieldOr none (optional textsOf) (members.lookup "always_ask_remove") = some config.alwaysAskRemove
  dangerous : fieldOr false Json.asBool? (members.lookup "auto_approve_dangerous") = some config.autoApproveDangerous

/-- What is read field by field, and the members that are left. -/
theorem fromValue_fields (read : UserConfig.fromValue members = some config) :
    PolicyRead members config ∧ config.extra = members.filter (·.1 ∉ UserConfig.modeledKeys) := by
  obtain ⟨_, _, read⟩ := Option.bind_eq_some_iff.mp read
  obtain ⟨_, _, read⟩ := Option.bind_eq_some_iff.mp read
  obtain ⟨_, _, read⟩ := Option.bind_eq_some_iff.mp read
  obtain ⟨_, level, read⟩ := Option.bind_eq_some_iff.mp read
  obtain ⟨_, added, read⟩ := Option.bind_eq_some_iff.mp read
  obtain ⟨_, removed, read⟩ := Option.bind_eq_some_iff.mp read
  obtain ⟨_, asked, read⟩ := Option.bind_eq_some_iff.mp read
  obtain ⟨_, released, read⟩ := Option.bind_eq_some_iff.mp read
  obtain ⟨_, dangerous, read⟩ := Option.bind_eq_some_iff.mp read
  obtain ⟨_, _, read⟩ := Option.bind_eq_some_iff.mp read
  obtain ⟨_, _, read⟩ := Option.bind_eq_some_iff.mp read
  obtain ⟨_, _, read⟩ := Option.bind_eq_some_iff.mp read
  obtain ⟨_, _, read⟩ := Option.bind_eq_some_iff.mp read
  obtain ⟨_, _, read⟩ := Option.bind_eq_some_iff.mp read
  obtain ⟨_, _, read⟩ := Option.bind_eq_some_iff.mp read
  obtain ⟨_, _, read⟩ := Option.bind_eq_some_iff.mp read
  obtain ⟨_, _, read⟩ := Option.bind_eq_some_iff.mp read
  obtain ⟨_, _, read⟩ := Option.bind_eq_some_iff.mp read
  cases read
  exact ⟨⟨level, added, removed, asked, released, dangerous⟩, rfl⟩

theorem textsOf_eq {value : Json} {names : List String} (read : textsOf value = some names) :
    value = .array (names.map .string) := by
  cases value with
  | array items =>
    congr 1
    induction items generalizing names with
    | nil =>
      cases read
      rfl
    | cons item rest ih =>
      simp only [textsOf, List.mapM_cons, Option.bind_eq_bind, Option.bind_eq_some_iff, pure, Option.some.injEq] at read
      obtain ⟨name, head, others, tail, rfl⟩ := read
      rw [List.map_cons, ← ih tail]
      cases item <;> cases head
      rfl
  | null | bool _ | number _ | string _ | object _ => cases read

theorem lastItems_texts {names : List String} : Json.lastItems (names.map .string) = names.map .string := by
  induction names with
  | nil => rw [List.map_nil, Json.lastItems]
  | cons name rest ih => rw [List.map_cons, Json.lastItems, Json.lastWins, ih]

theorem lookup_none {Value : Type} {entries : List (String × Value)} (unnamed : key ∉ entries.map Prod.fst) :
    entries.lookup key = none := by
  cases found : entries.lookup key with
  | none => rfl
  | some value => exact absurd (List.mem_map_of_mem (f := Prod.fst) (Json.mem_of_lookup found)) unnamed

/-- What the hook finds under a key that the text has at most once. -/
theorem get_lastWins (once : (document.map Prod.fst).count key ≤ 1) :
    (Json.lastWins (.object document)).get? key = (document.lookup key).map Json.lastWins := by
  rw [Json.lastWins]
  exact Json.lookup_lastMembers once

/-- The hook's lists are the typed ones. -/
theorem listed_texts {names : Option (List String)} (once : (document.map Prod.fst).count key ≤ 1)
    (read : fieldOr none (optional textsOf) (document.lookup key) = some names) :
    listed (some (Json.lastWins (.object document))) key toolName = true ↔ toolName ∈ names.getD [] := by
  simp only [listed, Option.any_some, lists]
  rw [get_lastWins once]
  cases found : document.lookup key with
  | none =>
    rw [found] at read
    cases read
    simp
  | some value =>
    rw [found] at read
    by_cases absent : value = .null
    · subst absent
      cases read
      simp [Json.lastWins, Json.asArray?]
    · have texts : (textsOf value).map some = some names := by
        cases value <;> first | exact absurd rfl absent | exact read
      obtain ⟨held, parsed, rfl⟩ := Option.map_eq_some_iff.mp texts
      rw [textsOf_eq parsed]
      simp [Json.lastWins, lastItems_texts, Json.asArray?, Json.asString?]

theorem variant_eq {name : String} {level : AutoApproveLevel} (read : AutoApproveLevel.fromValue.variant name = some level) :
    name = level.display := by
  simpa [eq_comm] using List.find?_some read

/-- Where the level is a text, the hook's level is the typed one. Elsewhere the hook has none. -/
theorem level_read (keeps : ∀ level : AutoApproveLevel, platform.toLowercase level.display = level.display)
    (once : (document.map Prod.fst).count "auto_approve_level" ≤ 1) (read : PolicyRead document config) :
    configuredLevel platform (some (Json.lastWins (.object document))) = none ∨
      configuredLevel platform (some (Json.lastWins (.object document))) = config.autoApproveLevel := by
  have typed := read.level
  simp only [configuredLevel, level, Option.bind_some]
  rw [get_lastWins once]
  cases found : document.lookup "auto_approve_level" with
  | none => exact .inl rfl
  | some value =>
    rw [found] at typed
    cases value with
    | string text =>
      simp only [fieldOr, optional, AutoApproveLevel.fromValue] at typed
      obtain ⟨level, named, same⟩ := Option.map_eq_some_iff.mp typed
      rw [← same, variant_eq named]
      exact .inr (UserConfig.fromStr_display keeps)
    | null | bool _ | number _ | array _ | object _ => exact .inl (by simp [Json.lastWins, Json.asString?])

theorem known_of_includes {level : AutoApproveLevel} (granted : level.includes toolName = true) :
    level = .all ∨ toolName ∈ allKnownTools := by
  refine (includes_iff.mp granted).imp_right ?_
  rintro ⟨tier, _, named⟩
  simp only [allKnownTools, List.mem_append]
  cases tier with
  | off | all => cases named
  | read => exact .inl (.inl (.inl named))
  | write => exact .inl (.inr named)
  | execute => exact .inr named

theorem read_includes : AutoApproveLevel.read.includes toolName = true ↔ toolName ∈ AutoApproveLevel.read.tierTools := by
  rw [includes_iff]
  constructor
  · rintro (top | ⟨tier, below, named⟩)
    · cases top
    · cases tier with
      | off => cases named
      | read => exact named
      | write | execute | all => exact absurd below (by decide)
  · exact fun named => .inr ⟨.read, Nat.le_refl _, named⟩

/-- What the hook reads of the configuration. -/
def policy (files : PolicyFiles) : Option Json :=
  trustedConfigJson files.effectiveUid files.config.parsed

def legacyPolicy (files : PolicyFiles) : Option Json :=
  trustedConfigJson files.effectiveUid files.legacy.parsed

/-- The configuration that the command line shows, unless it falls back to the defaults. -/
def shown (files : PolicyFiles) : Option UserConfig :=
  loadUserConfig files.effectiveUid files.config

section Reading

variable {files : PolicyFiles} {value : Option Json}

theorem parsed_policy (trusted : readTrusted files.effectiveUid files.config = .ok value) :
    policy files = value.map Json.lastWins := by
  have contents := UserConfig.trusted_read trusted
  have same : readTrusted files.effectiveUid files.config.parsed = .ok (value.map Json.lastWins) := by
    unfold readTrusted at trusted ⊢
    simp only [StoredFile.parsed, contents] at trusted ⊢
    repeat' split at trusted
    all_goals cases trusted
    next linked _ irregular foreign loose =>
      rw [if_neg linked, if_neg (by simp), if_neg irregular, if_neg foreign, if_neg loose]
  rw [policy, trustedConfigJson, same]

theorem displayed_eq (trusted : readTrusted files.effectiveUid files.config = .ok value) :
    files.config.displayed = (shown files).getD {} := by
  have contents := UserConfig.trusted_read trusted
  rw [StoredFile.displayed, contents, shown, loadUserConfig, trustedConfigJson, trusted]
  rcases value with _ | value
  · rfl
  · cases value <;> rfl

/-- A text that is shown, with its typed fields. -/
theorem shown_read (displayed : shown files = some config) :
    ∃ document, readTrusted files.effectiveUid files.config = .ok (some (.object document)) ∧
      PolicyRead document config ∧ ∀ key ∈ UserConfig.modeledKeys, (document.map Prod.fst).count key ≤ 1 := by
  unfold shown loadUserConfig trustedConfigJson at displayed
  cases trusted : readTrusted files.effectiveUid files.config with
  | error _ => rw [trusted] at displayed; cases displayed
  | ok value =>
    rw [trusted] at displayed
    match value, displayed with
    | some (.object document), displayed =>
      have loads : (UserConfig.fromDocument document).isSome = true := by
        rw [show UserConfig.fromDocument document = some config from displayed]
        rfl
      obtain ⟨⟨once, rules⟩, _⟩ := UserConfig.fromDocument_isSome.mp loads
      refine ⟨document, rfl, ?_, fun key named => UserConfig.once_of_unrepeated once named⟩
      simp only [UserConfig.fromDocument, if_pos (And.intro once rules)] at displayed
      obtain ⟨typed, read, rfl⟩ := Option.map_eq_some_iff.mp displayed
      have fields := (fromValue_fields read).1
      exact ⟨fields.level, fields.added, fields.removed, fields.asked, fields.released, fields.dangerous⟩

/-- A built-in prompt is not among the removals. Of other tools that are asked for and not
removed, the posture tells as much as the command line sees of the file. -/
structure AskedAlike (files : PolicyFiles) (toolName : String) : Prop where
  builtin : toolName ∈ defaultAlwaysAsk → (shown files).isSome = true →
    listed (policy files) "always_ask_remove" toolName = false
  added : toolName ∉ defaultAlwaysAsk → listed (policy files) "always_ask" toolName = true →
    listed (policy files) "always_ask_remove" toolName = false →
    flag (policy files) "auto_approve_dangerous" false = !(shown files).isSome

theorem asked_iff (trusted : readTrusted files.effectiveUid files.config = .ok value) :
    (toolName ∈ effectiveAlwaysAsk files.config.displayed ↔ deferred (policy files) toolName = true) ↔
      AskedAlike files toolName := by
  have condition : AskedAlike files toolName ↔
      (toolName ∈ defaultAlwaysAsk → (shown files).isSome = true →
        listed (policy files) "always_ask_remove" toolName = false) ∧
      (toolName ∉ defaultAlwaysAsk → listed (policy files) "always_ask" toolName = true →
        listed (policy files) "always_ask_remove" toolName = false →
        flag (policy files) "auto_approve_dangerous" false = !(shown files).isSome) :=
    ⟨fun alike => ⟨alike.builtin, alike.added⟩, fun ⟨builtin, added⟩ => ⟨builtin, added⟩⟩
  rw [condition, displayed_eq trusted, mem_effectiveAlwaysAsk, deferred_iff]
  cases displayed : shown files with
  | none =>
    simp only [Option.getD_none, List.not_mem_nil, or_false, not_false_eq_true, and_true, Option.isSome_none,
      Bool.false_eq_true, false_implies, implies_true, true_and, Bool.not_false]
    by_cases builtin : toolName ∈ defaultAlwaysAsk
    · simp [builtin]
    · cases flag (policy files) "auto_approve_dangerous" false <;> simp [builtin]
  | some config =>
    obtain ⟨document, document_trusted, read, once⟩ := shown_read displayed
    rw [parsed_policy document_trusted, Option.map_some]
    have asked := @listed_texts document _ toolName _ (once "always_ask" (by decide)) read.asked
    have released := @listed_texts document _ toolName _ (once "always_ask_remove" (by decide)) read.released
    simp only [Option.getD_some, ← asked, ← released, Option.isSome_some, Bool.not_true, true_implies, Bool.not_eq_true]
    by_cases builtin : toolName ∈ defaultAlwaysAsk
    · simp [builtin]
    · cases flag (some (Json.lastWins (.object document))) "auto_approve_dangerous" false <;> simp [builtin]

/-- The fields that decide about a tool say of it what the defaults say. -/
structure DefaultsApply (platform : HookPlatform) (files : PolicyFiles) (toolName : String) : Prop where
  removed : listed (policy files) "auto_approve_remove" toolName = true →
    toolName ∉ AutoApproveLevel.read.tierTools
  added : listed (policy files) "auto_approve_remove" toolName = false →
    listed (policy files) "auto_approve_add" toolName = true → toolName ∈ AutoApproveLevel.read.tierTools
  level : listed (policy files) "auto_approve_remove" toolName = false →
    listed (policy files) "auto_approve_add" toolName = false →
    ∀ level, configuredLevel platform (policy files) = some level →
      (level.includes toolName = true ↔ toolName ∈ AutoApproveLevel.read.tierTools)
  fallback : listed (policy files) "auto_approve_remove" toolName = false →
    listed (policy files) "auto_approve_add" toolName = false → configuredLevel platform (policy files) = none →
      ((legacyAutoApproved (legacyPolicy files) toolName).isSome = true ↔
        toolName ∈ AutoApproveLevel.read.tierTools)

/-- The lists name the tool, or the level tells about it on both sides: the highest level lists
it by name, and where the hook finds no level the legacy list grants what the shown level does. -/
def LevelAlike (platform : HookPlatform) (files : PolicyFiles) (config : UserConfig) (toolName : String) : Prop :=
  listed (policy files) "auto_approve_remove" toolName = true ∨
    listed (policy files) "auto_approve_add" toolName = true ∨
    match configuredLevel platform (policy files) with
    | some level => level = .all → toolName ∈ allKnownTools
    | none =>
      (legacyAutoApproved (legacyPolicy files) toolName).isSome = true ↔
        toolName ∈ allKnownTools ∧ (config.autoApproveLevel.getD .read).includes toolName = true

def ApprovedAlike (platform : HookPlatform) (files : PolicyFiles) (toolName : String) : Prop :=
  match shown files with
  | some config => LevelAlike platform files config toolName
  | none => DefaultsApply platform files toolName

theorem known_of_read (named : toolName ∈ AutoApproveLevel.read.tierTools) : toolName ∈ allKnownTools := by
  simp only [allKnownTools, List.mem_append]
  exact .inl (.inl (.inl named))

theorem baseApproved_iff {config : Option Json} : baseApproved platform config legacy toolName = true ↔
    listed config "auto_approve_remove" toolName = false ∧
      (listed config "auto_approve_add" toolName = true ∨ levelApproved platform config legacy toolName = true) := by
  simp [baseApproved]

theorem defaults_iff : (toolName ∈ AutoApproveLevel.read.tierTools ↔
      baseApproved platform (policy files) (legacyPolicy files) toolName = true) ↔
    DefaultsApply platform files toolName := by
  rw [baseApproved_iff]
  unfold levelApproved
  constructor
  · intro same
    refine ⟨fun removed named => ?_, fun kept added => same.mpr ⟨kept, .inl added⟩, fun kept unlisted level found => ?_,
      fun kept unlisted absent => ?_⟩
    · rw [(same.mp named).1] at removed
      cases removed
    · simp [same, kept, unlisted, found]
    · simp [same, kept, unlisted, absent]
  · intro apply
    cases removed : listed (policy files) "auto_approve_remove" toolName with
    | true => simp [apply.removed removed]
    | false =>
      cases added : listed (policy files) "auto_approve_add" toolName with
      | true => simp [apply.added removed added]
      | false =>
        cases found : configuredLevel platform (policy files) with
        | some level => simp [apply.level removed added level found]
        | none => simp [apply.fallback removed added found]

theorem approved_iff (keeps : ∀ level : AutoApproveLevel, platform.toLowercase level.display = level.display)
    (trusted : readTrusted files.effectiveUid files.config = .ok value) :
    ((autoApproveStatus files.config.displayed).approves toolName = true ↔
        baseApproved platform (policy files) (legacyPolicy files) toolName = true) ↔
      ApprovedAlike platform files toolName := by
  rw [displayed_eq trusted, approves_iff, ApprovedAlike]
  cases displayed : shown files with
  | none =>
    have tier : (toolName ∈ allKnownTools ∧ AutoApproveLevel.read.includes toolName = true) ↔
        toolName ∈ AutoApproveLevel.read.tierTools := by
      rw [read_includes]
      exact and_iff_right_of_imp known_of_read
    simp only [Option.getD_none, List.not_mem_nil, or_false, not_false_eq_true, and_true, tier]
    exact defaults_iff
  | some config =>
    obtain ⟨document, document_trusted, read, once⟩ := shown_read displayed
    have reading := parsed_policy document_trusted
    have added := @listed_texts document _ toolName _ (once "auto_approve_add" (by decide)) read.added
    have removed := @listed_texts document _ toolName _ (once "auto_approve_remove" (by decide)) read.removed
    have level := level_read keeps (once "auto_approve_level" (by decide)) read
    rw [Option.map_some] at reading
    rw [← reading] at added removed level
    simp only [Option.getD_some, ← added, ← removed, LevelAlike, baseApproved_iff, levelApproved]
    cases listed (policy files) "auto_approve_remove" toolName with
    | true => simp
    | false =>
      cases listed (policy files) "auto_approve_add" toolName with
      | true => simp
      | false =>
        cases found : configuredLevel platform (policy files) with
        | none =>
          simp only [Bool.false_eq_true, or_false, not_false_eq_true, and_true, true_and, false_or]
          exact iff_comm
        | some granted =>
          have typed : config.autoApproveLevel = some granted := by
            rw [found] at level
            exact (level.resolve_left (by simp)).symm
          simp only [typed, Option.getD_some, Bool.false_eq_true, or_false, not_false_eq_true, and_true, true_and, false_or]
          constructor
          · rintro same rfl
            exact (same.mpr rfl).1
          · intro named
            refine and_iff_right_of_imp fun includes => ?_
            exact (known_of_includes includes).elim named id

end Reading

section Reset

variable {before after : Json.Members} {wanted : String}

theorem lookup_applyChange : (applyChange before after members key).lookup wanted =
    if wanted = key ∧ before.lookup wanted ≠ after.lookup wanted then after.lookup wanted
    else members.lookup wanted := by
  unfold applyChange
  by_cases same : wanted = key
  · subst same
    by_cases kept : before.lookup wanted = after.lookup wanted
    · simp [kept]
    · rw [if_neg kept, if_pos ⟨rfl, kept⟩]
      cases after.lookup wanted with
      | none => simp [Json.lookup_removeMember]
      | some value => simp [Json.lookup_insertMember]
  · have other : ¬ (wanted = key ∧ before.lookup wanted ≠ after.lookup wanted) := fun both => same both.1
    rw [if_neg other]
    split
    · rfl
    · split
      · rw [Json.lookup_insertMember, if_neg same]
      · rw [Json.lookup_removeMember, if_neg same]

theorem lookup_applyEach {keys : List String} : (keys.foldl (applyChange before after) members).lookup wanted =
    if wanted ∈ keys ∧ before.lookup wanted ≠ after.lookup wanted then after.lookup wanted
    else members.lookup wanted := by
  induction keys generalizing members with
  | nil => simp
  | cons key rest ih =>
    rw [List.foldl_cons, ih, lookup_applyChange]
    by_cases changed : before.lookup wanted = after.lookup wanted
    · simp [changed]
    · by_cases first : wanted = key
      · subst first
        simp [changed]
      · simp [first, changed]

/-- An edit changes what its typed value says differently, and nothing else. -/
theorem lookup_applyChanges : (applyChanges members before after).lookup wanted =
    if before.lookup wanted = after.lookup wanted then members.lookup wanted else after.lookup wanted := by
  unfold applyChanges
  rw [lookup_applyEach]
  by_cases same : before.lookup wanted = after.lookup wanted
  · simp [same]
  · have named : wanted ∈ before.map Prod.fst ++ (after.map Prod.fst).filter (· ∉ before.map Prod.fst) := by
      by_contra unnamed
      rw [List.mem_append, List.mem_filter, not_or] at unnamed
      have absent : before.lookup wanted = none := lookup_none unnamed.1
      have missing : after.lookup wanted = none :=
        lookup_none fun named => unnamed.2 ⟨named, decide_eq_true unnamed.1⟩
      exact same (absent.trans missing.symm)
    rw [if_pos ⟨named, same⟩, if_neg same]

theorem nodup_applyChanges (distinct : (members.map Prod.fst).Nodup) :
    ((applyChanges members before after).map Prod.fst).Nodup := by
  simp only [applyChanges]
  generalize before.map Prod.fst ++ (after.map Prod.fst).filter (· ∉ before.map Prod.fst) = keys
  induction keys generalizing members with
  | nil => exact distinct
  | cons key rest ih =>
    rw [List.foldl_cons]
    apply ih
    unfold applyChange
    split
    · exact distinct
    · split
      · exact Json.nodup_insertMember distinct
      · exact Json.nodup_removeMember distinct

@[simp] theorem lookup_field {Value : Type} {encode : Value → Json} {value : Option Value} :
    (UserConfig.field key encode value).lookup wanted = if wanted = key then value.map encode else none := by
  by_cases same : wanted = key
  · subst same
    cases value <;> simp [UserConfig.field]
  · cases value <;> simp [UserConfig.field, same, List.lookup_cons, beq_false_of_ne same]

@[simp] theorem lookup_number {count : Option Nat} : (UserConfig.number key count).lookup wanted =
    if wanted = key then count.map fun value => Json.number (.integer value) else none :=
  lookup_field

@[simp] theorem lookup_tools {names : Option (List String)} : (UserConfig.tools key names).lookup wanted =
    if wanted = key then names.map fun names => Json.array (names.map .string) else none :=
  lookup_field

@[simp] theorem lookup_setFlag {value : Bool} :
    (UserConfig.setFlag key value).lookup wanted = if wanted = key ∧ value = true then some (.bool true) else none := by
  by_cases same : wanted = key
  · subst same
    cases value <;> simp [UserConfig.setFlag]
  · cases value <;> simp [UserConfig.setFlag, same, List.lookup_cons, beq_false_of_ne same]

theorem absent_of_none {Value : Type} {parse : Json → Option Value} {field : Option Json}
    (read : fieldOr none (optional parse) field = some none) : field.getD .null = .null := by
  cases field with
  | none => rfl
  | some value =>
    cases value with
    | null => rfl
    | bool _ | number _ | string _ | array _ | object _ =>
      obtain ⟨_, _, some⟩ := Option.map_eq_some_iff.mp read
      cases some

theorem lookup_extra (read : UserConfig.fromValue members = some config) (named : key ∈ UserConfig.modeledKeys) :
    config.extra.lookup key = none := by
  rw [(fromValue_fields read).2]
  apply lookup_none
  intro member
  obtain ⟨entry, kept, rfl⟩ := List.mem_map.mp member
  exact absurd named (by simpa using (List.mem_filter.mp kept).2)

/-- The typed fields of the policy, as they are written. -/
theorem lookup_toValue (extra : ∀ key ∈ UserConfig.modeledKeys, config.extra.lookup key = none) :
    config.toValue.lookup "auto_approve_level" = config.autoApproveLevel.map (fun level => .string level.display) ∧
    config.toValue.lookup "auto_approve_add" = config.autoApproveAdd.map (fun names => .array (names.map .string)) ∧
    config.toValue.lookup "auto_approve_remove" = config.autoApproveRemove.map (fun names => .array (names.map .string)) ∧
    config.toValue.lookup "always_ask" = config.alwaysAsk.map (fun names => .array (names.map .string)) ∧
    config.toValue.lookup "always_ask_remove" = config.alwaysAskRemove.map (fun names => .array (names.map .string)) ∧
    config.toValue.lookup "auto_approve_dangerous" = (if config.autoApproveDangerous then some (.bool true) else none) ∧
    config.toValue.lookup "tool_rules" = config.toolRules.map fun rules =>
      .object (rules.map fun (tool, rule) => (tool, rule.toValue)) := by
  delta UserConfig.toValue
  simp only [List.lookup_append, lookup_field, lookup_number, lookup_tools, lookup_setFlag]
  refine ⟨?_, ?_, ?_, ?_, ?_, ?_, ?_⟩
  · simp [List.lookup_cons, extra "auto_approve_level" (by decide)]
  · simp [List.lookup_cons, extra "auto_approve_add" (by decide)]
  · simp [List.lookup_cons, extra "auto_approve_remove" (by decide)]
  · simp [List.lookup_cons, extra "always_ask" (by decide)]
  · simp [List.lookup_cons, extra "always_ask_remove" (by decide)]
  · simp [List.lookup_cons, extra "auto_approve_dangerous" (by decide)]
  · simp [List.lookup_cons, extra "tool_rules" (by decide)]

/-- A field that an edit empties is absent or null afterwards. -/
theorem emptied {typed : Option Json} (held : before.lookup wanted = typed) (gone : after.lookup wanted = none)
    (absent : typed = none → (members.lookup wanted).getD .null = .null) :
    ((applyChanges members before after).lookup wanted).getD .null = .null := by
  rw [lookup_applyChanges, held, gone]
  cases typed with
  | none => exact absent rfl
  | some value => rfl

/-- After a reset the fields of the policy are absent, null or false, and the rules are kept. -/
theorem reset_lookup (read : UserConfig.fromValue members = some config) {edited : Json.Members}
    (same : edited = applyChanges members config.toValue (CliMutation.autoApproveReset.mutate config).toValue) :
    (∀ key ∈ ["auto_approve_level", "auto_approve_add", "auto_approve_remove", "always_ask", "always_ask_remove"],
      (edited.lookup key).getD .null = .null) ∧
    (edited.lookup "auto_approve_dangerous").getD (.bool false) = .bool false ∧
    edited.lookup "tool_rules" = members.lookup "tool_rules" := by
  have fields := (fromValue_fields read).1
  have extra : ∀ key ∈ UserConfig.modeledKeys, config.extra.lookup key = none := fun _ named => lookup_extra read named
  obtain ⟨level, add, remove, ask, release, dangerous, rules⟩ := lookup_toValue extra
  have after := @lookup_toValue (CliMutation.autoApproveReset.mutate config) extra
  obtain ⟨level', add', remove', ask', release', dangerous', rules'⟩ := after
  rw [same]
  refine ⟨?_, ?_, ?_⟩
  · simp only [List.forall_mem_cons]
    refine ⟨emptied level level' fun none => absent_of_none (fields.level.trans ?_),
      emptied add add' fun none => absent_of_none (fields.added.trans ?_),
      emptied remove remove' fun none => absent_of_none (fields.removed.trans ?_),
      emptied ask ask' fun none => absent_of_none (fields.asked.trans ?_),
      emptied release release' fun none => absent_of_none (fields.released.trans ?_), List.forall_mem_nil _⟩ <;>
      rw [Option.map_eq_none_iff.mp none]
  · have read := fields.dangerous
    rw [lookup_applyChanges, dangerous, dangerous']
    cases held : config.autoApproveDangerous with
    | true => simp [CliMutation.mutate]
    | false =>
      rw [held] at read
      simp only [CliMutation.mutate, Bool.false_eq_true, if_false, if_true]
      cases found : members.lookup "auto_approve_dangerous" with
      | none => rfl
      | some value =>
        rw [found] at read
        cases value <;> cases read
        rfl
  · rw [lookup_applyChanges, rules, rules']
    simp [CliMutation.mutate]

variable {files stored : PolicyFiles}

/-- The files with the configuration parsed as a writer parses it. -/
def parsed (files : PolicyFiles) : PolicyFiles :=
  { files with config := files.config.parsed }

/-- What a command line edit starts from, and what it stores. -/
theorem cli_update {mutation : CliMutation}
    (updated : (ConfigWriter.cli mutation).update platform (parsed files) = .ok stored) :
    ∃ members config, UserConfig.fromValue members = some config ∧ (members.map Prod.fst).Nodup ∧
      (members = [] ∨ files.config.parsed.read = .contents (some (.object members))) ∧
      stored = { parsed files with
        config := writeConfigAtomic files.effectiveUid
          (.object (applyChanges members config.toValue (mutation.mutate config).toValue)) } := by
  have stores : ∀ members, updateJson.finish files.effectiveUid ((ConfigWriter.cli mutation).edit ·) members =
      .ok stored.config → stored = { parsed files with config := stored.config } →
      ∃ config, UserConfig.fromValue members = some config ∧ stored = { parsed files with
        config := writeConfigAtomic files.effectiveUid
          (.object (applyChanges members config.toValue (mutation.mutate config).toValue)) } := by
    intro members finished same
    simp only [updateJson.finish, ConfigWriter.edit, updateForWrite] at finished
    cases read : UserConfig.fromValue members with
    | none =>
      rw [read] at finished
      cases finished
    | some config =>
      rw [read] at finished
      refine ⟨config, rfl, ?_⟩
      exact same.trans (by rw [← Except.ok.inj finished])
  simp only [ConfigWriter.update, ConfigWriter.validate] at updated
  cases written : updateJson (parsed files).effectiveUid (parsed files).config ((ConfigWriter.cli mutation).edit ·) with
  | error fault =>
    rw [written] at updated
    cases updated
  | ok config =>
    rw [written] at updated
    cases updated
    unfold updateJson at written
    cases contents : files.config.read with
    | denied | undecodable => simp [parsed, StoredFile.parsed, contents] at written
    | notFound =>
      simp only [parsed, StoredFile.parsed, contents] at written
      obtain ⟨config, read, same⟩ := stores [] written rfl
      exact ⟨[], config, read, List.nodup_nil, .inl rfl, same⟩
    | contents value =>
      simp only [parsed, StoredFile.parsed, contents] at written
      have named : ∃ document, value = some (.object document) := by
        rcases value with _ | value
        · cases written
        · cases value with
          | object document => exact ⟨document, rfl⟩
          | null | bool _ | number _ | string _ | array _ => cases written
      obtain ⟨document, rfl⟩ := named
      rw [Option.map_some, Json.lastWins] at written
      obtain ⟨config, read, same⟩ := stores (Json.lastMembers document) written rfl
      refine ⟨_, config, read, (Json.distinct_lastMembers document).1, .inr ?_, same⟩
      simp [StoredFile.parsed, contents, Json.lastWins]

theorem lastMembers_lookup_none (absent : members.lookup key = none) : (Json.lastMembers members).lookup key = none := by
  apply lookup_none
  rw [Json.mem_keys_lastMembers]
  intro named
  obtain ⟨entry, member, rfl⟩ := List.mem_map.mp named
  have differs := List.lookup_eq_none_iff.mp absent entry member
  simp at differs

theorem autoApprovedBy_unruled {config : Option Json} (unruled : config.bind (toolRule · toolName) = none)
    {toolInput : Json} : (autoApprovedBy platform config legacy toolName toolInput).isSome =
      baseApproved platform config legacy toolName := by
  unfold autoApprovedBy
  rw [unruled]
  exact baseRule_isSome

/-- Of the calls that the hook neither hands to the native prompt nor keeps for a human, the
legacy list names those of the read tier. -/
def ResetAlike (platform : HookPlatform) (files : PolicyFiles) (call : HookCall) : Prop :=
  call.toolName ∈ defaultAlwaysAsk ∨ forceHumanReview platform (policy files) call = true ∨
    ((legacyAutoApproved (legacyPolicy files) call.toolName).isSome = true ↔
      call.toolName ∈ AutoApproveLevel.read.tierTools)

theorem read_unforced {config : Option Json} (named : call.toolName ∈ AutoApproveLevel.read.tierTools) :
    call.toolName ∉ defaultAlwaysAsk ∧ forceHumanReview platform config call = false := by
  have other := (by decide : ∀ name ∈ AutoApproveLevel.read.tierTools,
    name ∉ defaultAlwaysAsk ∧ name ≠ "Bash" ∧ pathField name = none) _ named
  refine ⟨other.1, ?_⟩
  simp [forceHumanReview, targetsControlPlane, other.2.1, other.2.2]

/-- What the hook approves after a reset. -/
theorem approved_after_reset
    (reset : (ConfigWriter.cli .autoApproveReset).update platform (parsed files) = .ok stored)
    (plain : call.eventType = .preToolUse)
    (unruled : ∀ members, files.config.parsed.read = .contents (some (.object members)) →
      toolRule (.object members) call.toolName = none) :
    LocallyApproved platform (policy stored) legacy call ↔ call.toolName ∉ defaultAlwaysAsk ∧
      forceHumanReview platform (policy stored) call = false ∧
      (legacyAutoApproved legacy call.toolName).isSome = true := by
  obtain ⟨members, config, read, distinct, origin, same⟩ := cli_update reset
  obtain ⟨emptied, cautious, rules⟩ := reset_lookup read rfl
  generalize edits : applyChanges members config.toValue (CliMutation.autoApproveReset.mutate config).toValue = edited
    at same emptied cautious rules
  have once : ∀ key, (edited.map Prod.fst).count key ≤ 1 := by
    rw [← edits]
    exact List.nodup_iff_count_le_one.mp (nodup_applyChanges distinct)
  have reading : policy stored = some (Json.lastWins (.object edited)) := by
    have trusted : readTrusted stored.effectiveUid stored.config = .ok (some (.object edited)) := by
      rw [same]
      exact UserConfig.readTrusted_written
    rw [parsed_policy trusted, Option.map_some]
  have null : ∀ key, (edited.lookup key).getD .null = .null →
      (Json.lastWins (.object edited)).get? key = none ∨ (Json.lastWins (.object edited)).get? key = some .null := by
    intro key absent
    rw [get_lastWins (once key)]
    cases found : edited.lookup key with
    | none => exact .inl rfl
    | some value =>
      rw [found] at absent
      refine .inr ?_
      rw [show value = .null from absent, Option.map_some, Json.lastWins]
  have unlisted : ∀ key, (edited.lookup key).getD .null = .null →
      listed (policy stored) key call.toolName = false := by
    intro key absent
    rw [reading]
    rcases null key absent with none | null <;> simp [listed, lists, *, Json.asArray?]
  have unleveled : configuredLevel platform (policy stored) = none := by
    rw [reading]
    rcases null _ (emptied "auto_approve_level" (by simp)) with none | null <;>
      simp [configuredLevel, level, *, Json.asString?]
  have ruleless : (policy stored).bind (toolRule · call.toolName) = none := by
    rw [reading, Option.bind_some, toolRule, get_lastWins (once _), rules]
    rcases origin with rfl | contents
    · rfl
    · have before := unruled members contents
      simp only [toolRule, Json.get?] at before
      cases found : members.lookup "tool_rules" with
      | none => rfl
      | some value =>
        rw [found] at before
        cases value with
        | object rules =>
          simp only [Option.map_some, Json.lastWins, Option.bind_some, Json.asObject?]
          exact lastMembers_lookup_none before
        | null | bool _ | number _ | string _ | array _ => simp [Json.lastWins, Json.asObject?]
  have prompted : deferred (policy stored) call.toolName = true ↔ call.toolName ∈ defaultAlwaysAsk := by
    rw [deferred_iff, unlisted "always_ask" (emptied _ (by simp))]
    simp
  have based : baseApproved platform (policy stored) legacy call.toolName =
      (legacyAutoApproved legacy call.toolName).isSome := by
    simp [baseApproved, unlisted "auto_approve_remove" (emptied _ (by simp)),
      unlisted "auto_approve_add" (emptied _ (by simp)), levelApproved, unleveled]
  have untoggled : eventAutoApprovedBy (policy stored) call.eventType = none := by
    rw [plain]
    rfl
  rw [locallyApproved_iff, untoggled, autoApprovedBy_unruled ruleless, based, ← Bool.not_eq_true, prompted, plain]
  simp

theorem reset_iff (reset : (ConfigWriter.cli .autoApproveReset).update platform (parsed files) = .ok stored)
    (plain : call.eventType = .preToolUse)
    (unruled : ∀ members, files.config.parsed.read = .contents (some (.object members)) →
      toolRule (.object members) call.toolName = none) :
    (LocallyApproved platform (policy stored) (legacyPolicy stored) call ↔
        call.toolName ∈ AutoApproveLevel.read.tierTools) ↔ ResetAlike platform stored call := by
  rw [approved_after_reset reset plain unruled, ResetAlike]
  by_cases named : call.toolName ∈ AutoApproveLevel.read.tierTools
  · obtain ⟨unprompted, unforced⟩ := @read_unforced platform _ (policy stored) named
    simp [named, unprompted, unforced]
  · by_cases prompted : call.toolName ∈ defaultAlwaysAsk
    · simp [named, prompted]
    · cases forceHumanReview platform (policy stored) call <;> simp [named, prompted]

end Reset

/-- The command line's account of the always-ask set and of the approvals, and what a reset
leaves approved, against the hook. -/
theorem cli_view_iff (platform : HookPlatform)
    (keeps : ∀ level : AutoApproveLevel, platform.toLowercase level.display = level.display) (files : PolicyFiles)
    (value : Option Json) (trusted : readTrusted files.effectiveUid files.config = .ok value) :
    (∀ toolName, (toolName ∈ effectiveAlwaysAsk files.config.displayed ↔ deferred (policy files) toolName = true) ↔
      AskedAlike files toolName) ∧
    (∀ toolName, ((autoApproveStatus files.config.displayed).approves toolName = true ↔
        baseApproved platform (policy files) (legacyPolicy files) toolName = true) ↔
      ApprovedAlike platform files toolName) ∧
    ∀ stored call, (ConfigWriter.cli .autoApproveReset).update platform (parsed files) = .ok stored →
      call.eventType = .preToolUse →
      (∀ members, files.config.parsed.read = .contents (some (.object members)) →
        toolRule (.object members) call.toolName = none) →
      ((LocallyApproved platform (policy stored) (legacyPolicy stored) call ↔
        call.toolName ∈ AutoApproveLevel.read.tierTools) ↔ ResetAlike platform stored call) :=
  ⟨fun _ => asked_iff trusted, fun _ => approved_iff keeps trusted, fun _ _ => reset_iff⟩

private def storedPolicy (config legacy : Json.Members) : PolicyFiles where
  effectiveUid := 501
  config := writeConfigAtomic 501 (.object config)
  legacy := writeConfigAtomic 501 (.object legacy)

private def shellCall : HookCall where
  eventType := .preToolUse
  toolName := "Bash"
  toolInput := .object [("command", .string "ls")]

private theorem asciiHost_words (level : AutoApproveLevel) : asciiHost.toLowercase level.display = level.display := by
  cases level <;> decide +kernel

theorem cli_view_iff_shell :
    (("Bash" ∈ effectiveAlwaysAsk (storedPolicy [("always_ask", .array [.string "Bash"])] []).config.displayed ↔
        deferred (policy (storedPolicy [("always_ask", .array [.string "Bash"])] [])) "Bash" = true) ↔
      AskedAlike (storedPolicy [("always_ask", .array [.string "Bash"])] []) "Bash") ∧
    (((autoApproveStatus (storedPolicy [("always_ask", .array [.string "Bash"])] []).config.displayed).approves "Bash" =
          true ↔
        baseApproved asciiHost (policy (storedPolicy [("always_ask", .array [.string "Bash"])] []))
          (legacyPolicy (storedPolicy [("always_ask", .array [.string "Bash"])] [])) "Bash" = true) ↔
      ApprovedAlike asciiHost (storedPolicy [("always_ask", .array [.string "Bash"])] []) "Bash") ∧
    ((LocallyApproved asciiHost (policy (storedPolicy [] [])) (legacyPolicy (storedPolicy [] [])) shellCall ↔
        shellCall.toolName ∈ AutoApproveLevel.read.tierTools) ↔ ResetAlike asciiHost (storedPolicy [] []) shellCall) := by
  obtain ⟨asked, approved, reset⟩ := cli_view_iff asciiHost asciiHost_words
    (storedPolicy [("always_ask", .array [.string "Bash"])] []) (some (.object [("always_ask", .array [.string "Bash"])]))
    (by decide +kernel)
  refine ⟨asked "Bash", approved "Bash", reset (storedPolicy [] []) shellCall (by decide +kernel) rfl ?_⟩
  intro members contents
  cases contents
  decide +kernel

/-- The command line drops a built-in prompt that the hook still defers, it shows approvals that
a legacy list does not grant, and a reset leaves that list in force. -/
theorem builtin_prompt_unlisted :
    (¬ ∀ (files : PolicyFiles) (value : Option Json) (toolName : String),
      readTrusted files.effectiveUid files.config = .ok value →
      (toolName ∈ effectiveAlwaysAsk files.config.displayed ↔ deferred (policy files) toolName = true)) ∧
    (¬ ∀ (platform : HookPlatform) (files : PolicyFiles) (value : Option Json) (toolName : String),
      readTrusted files.effectiveUid files.config = .ok value →
      ((autoApproveStatus files.config.displayed).approves toolName = true ↔
        baseApproved platform (policy files) (legacyPolicy files) toolName = true)) ∧
    ¬ ∀ (platform : HookPlatform) (files stored : PolicyFiles) (call : HookCall),
      (ConfigWriter.cli .autoApproveReset).update platform (parsed files) = .ok stored →
      call.eventType = .preToolUse →
      (∀ members, files.config.parsed.read = .contents (some (.object members)) →
        toolRule (.object members) call.toolName = none) →
      (LocallyApproved platform (policy stored) (legacyPolicy stored) call ↔
        call.toolName ∈ AutoApproveLevel.read.tierTools) := by
  refine ⟨?_, ?_, ?_⟩
  · intro claimed
    have asked := claimed (storedPolicy [("always_ask_remove", .array [.string "AskUserQuestion"])] [])
      (some (.object [("always_ask_remove", .array [.string "AskUserQuestion"])])) "AskUserQuestion" (by decide +kernel)
    exact absurd (asked.mpr (by decide +kernel)) (by decide +kernel)
  · intro claimed
    have approved := claimed asciiHost (storedPolicy [] [("auto_approve", .array [.string "Bash"])])
      (some (.object [])) "Read" (by decide +kernel)
    exact absurd (approved.mp (by decide +kernel)) (by decide +kernel)
  · intro claimed
    have approved := claimed asciiHost (storedPolicy [] [("auto_approve", .array [.string "Bash"])])
      (storedPolicy [] [("auto_approve", .array [.string "Bash"])]) shellCall (by decide +kernel) rfl
      (fun members contents => by cases contents; decide +kernel)
    exact absurd (approved.mp ⟨"legacy_list", by decide +kernel⟩) (by decide +kernel)

end Wisphive.CliView
