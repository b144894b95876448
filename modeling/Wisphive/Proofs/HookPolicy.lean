import Wisphive.HookPolicy

/-! What the hook approves by itself, and what restricting edits do to it. -/

namespace Wisphive.HookPolicy
open Foundation

variable {platform : HookPlatform} {config legacy : Option Json} {call : HookCall}

/-- The call is answered without the daemon and without the native prompt. -/
def LocallyApproved (platform : HookPlatform) (config legacy : Option Json) (call : HookCall) : Prop :=
  ∃ decidedBy, runLocally platform config legacy call = .approve decidedBy

def Gated (platform : HookPlatform) (config legacy : Option Json) (call : HookCall) : Prop :=
  ¬ LocallyApproved platform config legacy call

def listed (config : Option Json) (key toolName : String) : Bool :=
  config.any (lists · key toolName)

def configuredLevel (platform : HookPlatform) (config : Option Json) : Option AutoApproveLevel :=
  config.bind (level platform)

/-- What the level grants, or the legacy list where there is no level. -/
def levelApproved (platform : HookPlatform) (config legacy : Option Json) (toolName : String) : Bool :=
  match configuredLevel platform config with
  | some level => level.includes toolName
  | none => (legacyAutoApproved legacy toolName).isSome

def baseApproved (platform : HookPlatform) (config legacy : Option Json) (toolName : String) : Bool :=
  !listed config "auto_approve_remove" toolName &&
    (listed config "auto_approve_add" toolName || levelApproved platform config legacy toolName)

/-- The patterns of a tool's rule that are texts. -/
def rulePatterns (config : Option Json) (key toolName : String) : List String :=
  ((((config.bind (toolRule · toolName)).bind (·.get? key)).bind Json.asArray?).getD []).filterMap Json.asString?

/-- A pattern of the call's tool occurs in its input. -/
def PatternMatches (platform : HookPlatform) (config : Option Json) (key : String) (call : HookCall) : Prop :=
  ∃ pattern ∈ rulePatterns config key call.toolName,
    Redact.contains (platform.toLowercase (toolInputText call.toolName call.toolInput)).toList
      (platform.toLowercase pattern).toList = true

def deferred (config : Option Json) (toolName : String) : Bool :=
  alwaysDeferClassification config toolName = .intrinsic ∨ alwaysDeferClassification config toolName = .operator

def forceHumanReview (platform : HookPlatform) (config : Option Json) (call : HookCall) : Bool :=
  !allowSelfModification config && targetsControlPlane platform call.toolName call.toolInput

/-- The call gets as far as the auto-approve rules. -/
structure ReachesRules (platform : HookPlatform) (config : Option Json) (call : HookCall) : Prop where
  prompted : deferred config call.toolName = false
  unforced : forceHumanReview platform config call = false
  untoggled : eventAutoApprovedBy config call.eventType = none
  plain : call.eventType ≠ .permissionRequest

theorem matchesAny_iff {rule : Json} {key inputLower : String} :
    matchesAny platform rule key inputLower = true ↔
      ∃ pattern ∈ (((rule.get? key).bind Json.asArray?).getD []).filterMap Json.asString?,
        Redact.contains inputLower.toList (platform.toLowercase pattern).toList = true := by
  cases patterns : (rule.get? key).bind Json.asArray? with
  | none => simp [matchesAny, patterns]
  | some items =>
    simp only [matchesAny, patterns, List.any_eq_true, Option.getD_some, List.mem_filterMap]
    constructor
    · rintro ⟨item, member, hit⟩
      cases text : item.asString? with
      | none => simp [text] at hit
      | some pattern => exact ⟨pattern, ⟨item, member, text⟩, by simpa [text] using hit⟩
    · rintro ⟨pattern, ⟨item, member, text⟩, hit⟩
      exact ⟨item, member, by simpa [text] using hit⟩

theorem patternMatches_iff {key : String} :
    PatternMatches platform config key call ↔
      ∃ rule, config.bind (toolRule · call.toolName) = some rule ∧
        matchesAny platform rule key
          (platform.toLowercase (toolInputText call.toolName call.toolInput)) = true := by
  cases found : config.bind (toolRule · call.toolName) with
  | none => simp [PatternMatches, rulePatterns, found]
  | some rule => simp [PatternMatches, rulePatterns, found, matchesAny_iff]

theorem checkBaseApproved_isSome {fields : Json} {toolName : String} :
    (checkBaseApproved platform fields legacy toolName).isSome =
      (lists fields "auto_approve_add" toolName || levelApproved platform (some fields) legacy toolName) := by
  unfold checkBaseApproved levelApproved configuredLevel
  cases lists fields "auto_approve_add" toolName with
  | true => rfl
  | false =>
    cases found : level platform fields with
    | none => simp [found]
    | some level => cases granted : level.includes toolName <;> simp [found, granted]

theorem baseRule_isSome {toolName : String} :
    (baseRule platform config legacy toolName).isSome = baseApproved platform config legacy toolName := by
  cases config with
  | none => simp [baseRule, baseApproved, listed, levelApproved, configuredLevel]
  | some fields =>
    simp only [baseRule, baseApproved, listed, Option.any_some, ← checkBaseApproved_isSome]
    split
    · next removed => simp [removed]
    · next kept => simp [kept]

/-- The approvals of the rules are the base approvals that no deny pattern meets, and
the other calls that an allow pattern meets. -/
theorem autoApprovedBy_iff :
    (autoApprovedBy platform config legacy call.toolName call.toolInput).isSome = true ↔
      if baseApproved platform config legacy call.toolName then ¬ PatternMatches platform config "deny_patterns" call
      else PatternMatches platform config "allow_patterns" call := by
  rw [patternMatches_iff, patternMatches_iff, ← baseRule_isSome]
  unfold autoApprovedBy
  cases config.bind (toolRule · call.toolName) with
  | none => cases baseRule platform config legacy call.toolName <;> simp
  | some rule => cases baseRule platform config legacy call.toolName <;> simp

theorem deferred_iff {toolName : String} :
    deferred config toolName = true ↔
      toolName ∈ defaultAlwaysAsk ∨ listed config "always_ask" toolName = true ∧
        listed config "always_ask_remove" toolName = false ∧ flag config "auto_approve_dangerous" false = false := by
  by_cases intrinsic : toolName ∈ defaultAlwaysAsk
  · simp [deferred, alwaysDeferClassification, intrinsic]
  · cases config with
    | none => simp [deferred, alwaysDeferClassification, intrinsic, listed]
    | some fields =>
      simp only [deferred, alwaysDeferClassification, List.contains_eq_mem, intrinsic, decide_false,
        Bool.false_eq_true, if_false, listed, Option.any_some, decide_eq_true_eq, false_or]
      cases lists fields "always_ask_remove" toolName with
      | true => simp
      | false =>
        cases lists fields "always_ask" toolName <;>
          cases flag (some fields) "auto_approve_dangerous" false <;> simp

theorem locallyApproved_iff :
    LocallyApproved platform config legacy call ↔
      deferred config call.toolName = false ∧ forceHumanReview platform config call = false ∧
        ((eventAutoApprovedBy config call.eventType).isSome = true ∨ call.eventType ≠ .permissionRequest ∧
          (autoApprovedBy platform config legacy call.toolName call.toolInput).isSome = true) := by
  unfold LocallyApproved runLocally deferred forceHumanReview
  by_cases prompt : alwaysDeferClassification config call.toolName = .intrinsic ∨
      alwaysDeferClassification config call.toolName = .operator
  · simp [prompt]
  · simp only [prompt, if_false, decide_false, true_and]
    cases !allowSelfModification config && targetsControlPlane platform call.toolName call.toolInput with
    | true => simp
    | false =>
      cases eventAutoApprovedBy config call.eventType with
      | some toggleKey => simp
      | none =>
        by_cases permission : call.eventType = .permissionRequest
        · simp [permission]
        · cases autoApprovedBy platform config legacy call.toolName call.toolInput <;> simp [permission]

/-- Where the rules are reached, they decide. -/
theorem ReachesRules.approved_iff (reaches : ReachesRules platform config call) :
    LocallyApproved platform config legacy call ↔
      (autoApprovedBy platform config legacy call.toolName call.toolInput).isSome = true := by
  rw [locallyApproved_iff]
  simp [reaches.prompted, reaches.unforced, reaches.untoggled, reaches.plain]

theorem includes_iff {level : AutoApproveLevel} {toolName : String} :
    level.includes toolName = true ↔
      level = .all ∨ ∃ tier : AutoApproveLevel, tier.rank ≤ level.rank ∧ toolName ∈ tier.tierTools := by
  have upward : [AutoApproveLevel.off, .read, .write, .execute].takeWhile (·.rank ≤ level.rank) =
      [AutoApproveLevel.off, .read, .write, .execute].filter (·.rank ≤ level.rank) := by cases level <;> rfl
  simp only [AutoApproveLevel.includes, upward, Bool.or_eq_true, decide_eq_true_eq, List.any_eq_true,
    List.mem_filter, List.contains_iff_mem]
  constructor
  · rintro (top | ⟨tier, ⟨_, below⟩, named⟩)
    · exact .inl top
    · exact .inr ⟨tier, below, named⟩
  · rintro (top | ⟨tier, below, named⟩)
    · exact .inl top
    · refine .inr ⟨tier, ⟨?_, below⟩, named⟩
      cases tier with
      | all => cases named
      | _ => decide

theorem includes_mono {low high : AutoApproveLevel} {toolName : String} (below : low.rank ≤ high.rank)
    (granted : low.includes toolName = true) : high.includes toolName = true := by
  rw [includes_iff] at granted ⊢
  rcases granted with rfl | ⟨tier, under, named⟩
  · apply Or.inl
    cases high with
    | all => rfl
    | _ => exact absurd below (by decide)
  · exact .inr ⟨tier, Nat.le_trans under below, named⟩

theorem off_includes {toolName : String} : AutoApproveLevel.off.includes toolName = false := rfl

/-- A host whose calls stay out of the state directory. -/
def asciiHost : HookPlatform where
  toLowercase text := String.ofList (text.toList.flatMap Redact.toLowercase)
  pathInDir _ := false
  commandReferencesDir _ := false

/-! ### Deny patterns

What a deny pattern stops. It vetoes the base approvals of its tool. Where there is none,
the allow patterns are asked instead, and the deny patterns are not. -/

/-- The tool has no base approval, and an allow pattern meets its input. -/
structure AllowedByPattern (platform : HookPlatform) (config legacy : Option Json) (call : HookCall) : Prop where
  unbased : baseApproved platform config legacy call.toolName = false
  allowed : PatternMatches platform config "allow_patterns" call
  plain : call.eventType ≠ .permissionRequest

/-- The rules approve an input that a deny pattern meets by an allow pattern only. -/
theorem denied_rules_iff (denied : PatternMatches platform config "deny_patterns" call) :
    (autoApprovedBy platform config legacy call.toolName call.toolInput).isSome = true ↔
      baseApproved platform config legacy call.toolName = false ∧ PatternMatches platform config "allow_patterns" call := by
  rw [autoApprovedBy_iff]
  cases baseApproved platform config legacy call.toolName with
  | true => simp [denied]
  | false => simp

/-- A call whose input a deny pattern meets is approved by the toggle of its event, or by an
allow pattern where neither the lists nor the level approve its tool. -/
theorem denied_call_approved_iff (denied : PatternMatches platform config "deny_patterns" call) :
    LocallyApproved platform config legacy call ↔
      deferred config call.toolName = false ∧ forceHumanReview platform config call = false ∧
        ((eventAutoApprovedBy config call.eventType).isSome = true ∨
          AllowedByPattern platform config legacy call) := by
  rw [locallyApproved_iff, denied_rules_iff denied]
  refine and_congr_right fun _ => and_congr_right fun _ => or_congr_right ?_
  constructor
  · rintro ⟨plain, unbased, allowed⟩
    exact ⟨unbased, allowed, plain⟩
  · intro instead
    exact ⟨instead.plain, instead.unbased, instead.allowed⟩

/-- Nothing says that `Bash` is approved, `rm` goes to the human, and `cargo` passes. -/
private def guardedCargo : Option Json :=
  some (.object [("auto_approve_level", .string "read"),
    ("tool_rules", .object [("Bash", .object [("deny_patterns", .array [.string "rm"]),
      ("allow_patterns", .array [.string "cargo"])])])])

private def bash (command : String) : HookCall where
  eventType := .preToolUse
  toolName := "Bash"
  toolInput := .object [("command", .string command)]

theorem denied_call_approved_iff_bash :
    LocallyApproved asciiHost guardedCargo none (bash "rm x") ↔
      deferred guardedCargo "Bash" = false ∧ forceHumanReview asciiHost guardedCargo (bash "rm x") = false ∧
        ((eventAutoApprovedBy guardedCargo .preToolUse).isSome = true ∨
          AllowedByPattern asciiHost guardedCargo none (bash "rm x")) :=
  denied_call_approved_iff ⟨"rm", by decide +kernel, by decide +kernel⟩

/-- An allow pattern lets an input through that a deny pattern of the same rule meets. -/
theorem denied_pattern_overruled :
    PatternMatches asciiHost guardedCargo "deny_patterns" (bash "cargo run && rm x") ∧
      runLocally asciiHost guardedCargo none (bash "cargo run && rm x") = .approve "tool_rules:Bash:allow_pattern" :=
  ⟨⟨"rm", by decide +kernel, by decide +kernel⟩, by decide +kernel⟩

end Wisphive.HookPolicy
