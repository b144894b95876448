import Wisphive.ConfigWatch
import Wisphive.Proofs.HookPolicy

/-! What the configuration watch can see of the hook's policy. The snapshot covers all
but the deny patterns and the way an absent level falls back. -/

namespace Wisphive
open Foundation HookPolicy

variable {platform : HookPlatform} {legacy : Option Json} {call : HookCall}

namespace PolicySnapshot

/-- The snapshot shows what the hook reads, a configuration or nothing. -/
theorem read_eq (file : ConfigFile) :
    read platform file =
      { fromValue platform (file.trustedConfigJson.getD .null) with
        trusted := (read platform file).trusted, untrustedReason := (read platform file).untrustedReason } := by
  cases file with
  | contents value => rfl
  | missing => rfl
  | untrusted reason => rfl

theorem mem_stringSet {config : Option Json} {key toolName : String} :
    toolName ∈ stringSet (config.getD .null) key ↔ listed config key toolName = true := by
  cases config with
  | none => simp [stringSet, listed, Json.get?]
  | some value =>
    simp only [stringSet, listed, Option.getD_some, Option.any_some, lists, List.mem_toFinset, List.mem_filterMap]
    cases (value.get? key).bind Json.asArray? with
    | none => simp
    | some items => simp [List.any_eq_true]

theorem boolAt_eq {config : Option Json} {key : String} {default : Bool} :
    boolAt (config.getD .null) key default = flag config key default := by
  cases config <;> rfl

theorem levelRank_eq {config : Option Json} :
    (fromValue platform (config.getD .null)).levelRank =
      ((configuredLevel platform config).map AutoApproveLevel.rank).getD 1 := by
  cases config <;> rfl

theorem mem_of_lookup {Value : Type} {rules : List (String × Value)} {toolName : String} {rule : Value}
    (found : rules.lookup toolName = some rule) : (toolName, rule) ∈ rules := by
  obtain ⟨before, after, rfl, _⟩ := List.lookup_eq_some_iff.mp found
  exact List.mem_append_right _ (List.mem_cons_self ..)

theorem mem_allowPatternsOf {config : Option Json} {toolName pattern : String} :
    pattern ∈ rulePatterns config "allow_patterns" toolName ↔
      ∃ patterns, (toolName, patterns) ∈ allowPatternsOf (config.getD .null) ∧ pattern ∈ patterns := by
  cases config with
  | none => simp [rulePatterns, allowPatternsOf, Json.get?]
  | some value =>
    simp only [rulePatterns, allowPatternsOf, toolRule, Option.getD_some, Option.bind_some]
    cases (value.get? "tool_rules").bind Json.asObject? with
    | none => simp
    | some rules =>
      simp only [Option.bind_some, List.mem_filterMap, Finset.mem_sort, List.mem_toFinset]
      constructor
      · intro member
        cases found : rules.lookup toolName with
        | none => simp [found] at member
        | some rule =>
          have inside : pattern ∈ stringSet rule "allow_patterns" := by
            simpa [stringSet, found] using member
          refine ⟨stringSet rule "allow_patterns", ⟨toolName, ?_, ?_⟩, inside⟩
          · exact List.mem_map_of_mem (mem_of_lookup found)
          · rw [found]
            exact if_neg (Finset.ne_empty_of_mem inside)
      · rintro ⟨patterns, ⟨tool, _, kept⟩, inside⟩
        cases found : rules.lookup tool with
        | none => simp [found] at kept
        | some rule =>
          simp only [found] at kept
          split at kept
          · cases kept
          · obtain ⟨rfl, rfl⟩ := Prod.mk.inj (Option.some.inj kept)
            simpa [stringSet, found] using inside

end PolicySnapshot

/-- The second configuration widens nothing that the snapshot shows. -/
structure Narrows (platform : HookPlatform) (old new : Option Json) : Prop where
  level : ((configuredLevel platform new).map AutoApproveLevel.rank).getD 1 ≤
    ((configuredLevel platform old).map AutoApproveLevel.rank).getD 1
  added : ∀ toolName, listed new "auto_approve_add" toolName = true → listed old "auto_approve_add" toolName = true
  removed : ∀ toolName, listed old "auto_approve_remove" toolName = true →
    listed new "auto_approve_remove" toolName = true
  released : ∀ toolName, listed new "always_ask_remove" toolName = true →
    listed old "always_ask_remove" toolName = true
  asked : ∀ toolName, listed old "always_ask" toolName = true → listed new "always_ask" toolName = true
  flags : ∀ pair ∈ [("auto_approve_dangerous", false), ("allow_self_modification", false),
      ("auto_approve_stop", false), ("auto_approve_user_prompt", true), ("auto_approve_config_change", true),
      ("auto_approve_lifecycle", true)],
    flag new pair.1 pair.2 = true → flag old pair.1 pair.2 = true
  allows : ∀ toolName, ∀ pattern ∈ rulePatterns new "allow_patterns" toolName,
    pattern ∈ rulePatterns old "allow_patterns" toolName

private theorem sort_difference_nil {first second : Finset String} {message : String → String}
    (quiet : ((first \ second).sort (· ≤ ·)).map message = []) : first ⊆ second := by
  rw [List.map_eq_nil_iff] at quiet
  intro name member
  by_contra absent
  have missing : name ∈ (first \ second).sort (· ≤ ·) := by
    rw [Finset.mem_sort, Finset.mem_sdiff]
    exact ⟨member, absent⟩
  rw [quiet] at missing
  cases missing

theorem narrows_of_widenings {old new : ConfigFile}
    (quiet : widenings (PolicySnapshot.read platform old) (PolicySnapshot.read platform new) = []) :
    Narrows platform old.trustedConfigJson new.trustedConfigJson := by
  rw [PolicySnapshot.read_eq old, PolicySnapshot.read_eq new] at quiet
  simp only [widenings, List.append_eq_nil_iff] at quiet
  obtain ⟨⟨⟨⟨⟨⟨levels, added⟩, removed⟩, released⟩, unasked⟩, enabled⟩, patterns⟩ := quiet
  refine ⟨?_, ?_, ?_, ?_, ?_, ?_, ?_⟩
  · by_contra raised
    rw [← PolicySnapshot.levelRank_eq, ← PolicySnapshot.levelRank_eq] at raised
    rw [if_pos (Nat.lt_of_not_le raised)] at levels
    cases levels
  · intro toolName
    rw [← PolicySnapshot.mem_stringSet, ← PolicySnapshot.mem_stringSet]
    apply sort_difference_nil added
  · intro toolName
    rw [← PolicySnapshot.mem_stringSet, ← PolicySnapshot.mem_stringSet]
    apply sort_difference_nil removed
  · intro toolName
    rw [← PolicySnapshot.mem_stringSet, ← PolicySnapshot.mem_stringSet]
    apply sort_difference_nil released
  · intro toolName
    rw [← PolicySnapshot.mem_stringSet, ← PolicySnapshot.mem_stringSet]
    apply sort_difference_nil unasked
  · simp only [PolicySnapshot.flags, PolicySnapshot.fromValue, PolicySnapshot.boolAt_eq, List.zip_cons_cons,
      List.zip_nil_right, List.filterMap_eq_nil_iff, List.forall_mem_cons] at enabled ⊢
    simp only [ite_eq_right_iff, reduceCtorEq, imp_false, Bool.and_eq_true, Bool.not_eq_true', not_and,
      Bool.not_eq_true] at enabled
    grind
  · intro toolName pattern
    rw [PolicySnapshot.mem_allowPatternsOf, PolicySnapshot.mem_allowPatternsOf]
    rintro ⟨set, shown, member⟩
    rw [List.flatMap_eq_nil_iff] at patterns
    have kept := sort_difference_nil (patterns ⟨toolName, set⟩ shown) member
    cases known : (PolicySnapshot.fromValue platform (old.trustedConfigJson.getD .null)).allowPatterns.lookup toolName with
    | none => simp [known] at kept
    | some before =>
      rw [known] at kept
      exact ⟨before, PolicySnapshot.mem_of_lookup known, kept⟩

namespace Narrows
variable {old new : Option Json}

theorem unprompted {toolName : String} (narrows : Narrows platform old new)
    (prompted : deferred new toolName = false) : deferred old toolName = false := by
  rw [Bool.eq_false_iff, ne_eq, deferred_iff] at prompted ⊢
  rintro (intrinsic | ⟨asked, kept, cautious⟩)
  · exact prompted (.inl intrinsic)
  · refine prompted (.inr ⟨narrows.asked toolName asked, ?_, ?_⟩)
    · rw [Bool.eq_false_iff] at kept ⊢
      exact fun released => kept (narrows.released toolName released)
    · rw [Bool.eq_false_iff] at cautious ⊢
      exact fun enabled => cautious (narrows.flags ("auto_approve_dangerous", false) (by simp) enabled)

theorem unforced (narrows : Narrows platform old new) (free : forceHumanReview platform new call = false) :
    forceHumanReview platform old call = false := by
  simp only [forceHumanReview, allowSelfModification, Bool.and_eq_false_iff, Bool.not_eq_false'] at free ⊢
  exact free.imp_left (narrows.flags ("allow_self_modification", false) (by simp))

theorem toggled {eventType : HookEventType} (narrows : Narrows platform old new)
    (toggle : (eventAutoApprovedBy new eventType).isSome = true) :
    (eventAutoApprovedBy old eventType).isSome = true := by
  unfold eventAutoApprovedBy at toggle ⊢
  cases named : eventToggle eventType with
  | none => simp [named] at toggle
  | some pair =>
    obtain ⟨configKey, default⟩ := pair
    simp only [named] at toggle ⊢
    cases enabled : flag new configKey default with
    | false => simp [enabled] at toggle
    | true =>
      have known : (configKey, default) ∈ [("auto_approve_dangerous", false), ("allow_self_modification", false),
          ("auto_approve_stop", false), ("auto_approve_user_prompt", true), ("auto_approve_config_change", true),
          ("auto_approve_lifecycle", true)] := by
        cases eventType <;> simp_all [eventToggle]
      rw [narrows.flags (configKey, default) known enabled]
      rfl

/-- Where both configurations name a level or neither does, the level grants no more. -/
theorem levelApproved {toolName : String} (narrows : Narrows platform old new)
    (alike : (configuredLevel platform old).isSome = (configuredLevel platform new).isSome)
    (approved : HookPolicy.levelApproved platform new legacy toolName = true) :
    HookPolicy.levelApproved platform old legacy toolName = true := by
  have below := narrows.level
  unfold HookPolicy.levelApproved at approved ⊢
  cases before : configuredLevel platform old with
  | none =>
    cases after : configuredLevel platform new with
    | none => simpa [after] using approved
    | some low => simp [before, after] at alike
  | some high =>
    cases after : configuredLevel platform new with
    | none => simp [before, after] at alike
    | some low =>
      rw [before, after] at below
      rw [after] at approved
      exact includes_mono below approved

end Narrows

/-- A deny pattern had stopped a base approval, and the new rules pass the call. -/
structure DenyLifted (platform : HookPlatform) (old new legacy : Option Json) (call : HookCall) : Prop where
  based : baseApproved platform old legacy call.toolName = true
  denied : PatternMatches platform old "deny_patterns" call
  passes : if baseApproved platform new legacy call.toolName then ¬ PatternMatches platform new "deny_patterns" call
    else PatternMatches platform new "allow_patterns" call

/-- One of the two names a level, the other falls back to the legacy list, and the new
side grants what the old side does not. -/
structure FallbackGained (platform : HookPlatform) (old new legacy : Option Json) (call : HookCall) : Prop where
  mixed : (configuredLevel platform old).isSome ≠ (configuredLevel platform new).isSome
  granted : levelApproved platform new legacy call.toolName = true
  ungranted : levelApproved platform old legacy call.toolName = false
  unremoved : listed new "auto_approve_remove" call.toolName = false
  unadded : listed old "auto_approve_add" call.toolName = false
  unallowed : ¬ PatternMatches platform old "allow_patterns" call
  undenied : ¬ PatternMatches platform new "deny_patterns" call

/-- The call reaches the rules under both configurations and gains there. -/
def WidensUnseen (platform : HookPlatform) (old new legacy : Option Json) (call : HookCall) : Prop :=
  ReachesRules platform old call ∧ ReachesRules platform new call ∧
    (DenyLifted platform old new legacy call ∨ FallbackGained platform old new legacy call)

namespace Narrows
variable {old new : Option Json}

theorem gained (narrows : Narrows platform old new)
    (approved : (autoApprovedBy platform new legacy call.toolName call.toolInput).isSome = true)
    (refused : ¬ (autoApprovedBy platform old legacy call.toolName call.toolInput).isSome = true) :
    DenyLifted platform old new legacy call ∨ FallbackGained platform old new legacy call := by
  rw [autoApprovedBy_iff] at approved refused
  cases before : baseApproved platform old legacy call.toolName with
  | true =>
    rw [before, if_pos rfl, not_not] at refused
    exact .inl ⟨before, refused, approved⟩
  | false =>
    rw [before, if_neg Bool.false_ne_true] at refused
    cases after : baseApproved platform new legacy call.toolName with
    | false =>
      rw [after, if_neg Bool.false_ne_true] at approved
      obtain ⟨pattern, member, occurs⟩ := approved
      exact absurd ⟨pattern, narrows.allows _ _ member, occurs⟩ refused
    | true =>
      rw [after, if_pos rfl] at approved
      simp only [baseApproved, Bool.and_eq_true, Bool.not_eq_true', Bool.or_eq_true] at after
      obtain ⟨unremoved, granted⟩ := after
      have kept : listed old "auto_approve_remove" call.toolName = false := by
        rw [Bool.eq_false_iff] at unremoved ⊢
        exact fun removed => unremoved (narrows.removed _ removed)
      simp only [baseApproved, kept, Bool.not_false, Bool.true_and, Bool.or_eq_false_iff] at before
      obtain ⟨unadded, ungranted⟩ := before
      have level : HookPolicy.levelApproved platform new legacy call.toolName = true := by
        rcases granted with added | level
        · rw [narrows.added _ added] at unadded
          cases unadded
        · exact level
      refine .inr ⟨?_, level, ungranted, unremoved, unadded, refused, approved⟩
      intro alike
      rw [narrows.levelApproved alike level] at ungranted
      cases ungranted

end Narrows

theorem DenyLifted.widens {old new : Option Json} (lifted : DenyLifted platform old new legacy call) :
    (autoApprovedBy platform new legacy call.toolName call.toolInput).isSome = true ∧
      ¬ (autoApprovedBy platform old legacy call.toolName call.toolInput).isSome = true := by
  rw [autoApprovedBy_iff, autoApprovedBy_iff, lifted.based, if_pos rfl, not_not]
  exact ⟨lifted.passes, lifted.denied⟩

theorem FallbackGained.widens {old new : Option Json} (gained : FallbackGained platform old new legacy call) :
    (autoApprovedBy platform new legacy call.toolName call.toolInput).isSome = true ∧
      ¬ (autoApprovedBy platform old legacy call.toolName call.toolInput).isSome = true := by
  have after : baseApproved platform new legacy call.toolName = true := by
    simp [baseApproved, gained.unremoved, gained.granted]
  have before : baseApproved platform old legacy call.toolName = false := by
    simp [baseApproved, gained.unadded, gained.ungranted]
  rw [autoApprovedBy_iff, autoApprovedBy_iff, after, before, if_pos rfl, if_neg Bool.false_ne_true]
  exact ⟨gained.undenied, gained.unallowed⟩

/-- When the watch reports nothing, an approval is new exactly where the call widens unseen. -/
theorem quiet_watch_sound_iff {old new : ConfigFile}
    (quiet : widenings (PolicySnapshot.read platform old) (PolicySnapshot.read platform new) = []) :
    (LocallyApproved platform new.trustedConfigJson legacy call →
        LocallyApproved platform old.trustedConfigJson legacy call) ↔
      ¬ WidensUnseen platform old.trustedConfigJson new.trustedConfigJson legacy call := by
  have narrows := narrows_of_widenings quiet
  constructor
  · rintro sound ⟨reachedOld, reachedNew, widened⟩
    rw [reachedOld.approved_iff, reachedNew.approved_iff] at sound
    rcases widened with lifted | gained
    · exact lifted.widens.2 (sound lifted.widens.1)
    · exact gained.widens.2 (sound gained.widens.1)
  · intro seen approved
    rw [locallyApproved_iff] at approved ⊢
    obtain ⟨prompted, unforced, approved⟩ := approved
    have promptedOld := narrows.unprompted prompted
    have unforcedOld := narrows.unforced unforced
    refine ⟨promptedOld, unforcedOld, ?_⟩
    rcases approved with toggle | ⟨plain, rule⟩
    · exact .inl (narrows.toggled toggle)
    · by_contra unapproved
      rw [not_or, not_and] at unapproved
      obtain ⟨untoggled, refused⟩ := unapproved
      have toggleOld : eventAutoApprovedBy old.trustedConfigJson call.eventType = none := by
        simpa using untoggled
      have toggleNew : eventAutoApprovedBy new.trustedConfigJson call.eventType = none := by
        rw [← Option.not_isSome_iff_eq_none]
        exact fun toggle => untoggled (narrows.toggled toggle)
      exact seen ⟨⟨promptedOld, unforcedOld, toggleOld, plain⟩, ⟨prompted, unforced, toggleNew, plain⟩,
        narrows.gained rule (refused plain)⟩

private def guardedShell : ConfigFile :=
  .contents (some (.object [("auto_approve_level", .string "execute"),
    ("tool_rules", .object [("Bash", .object [("deny_patterns", .array [.string "rm"])])])]))

private def unguardedShell : ConfigFile :=
  .contents (some (.object [("auto_approve_level", .string "execute")]))

private def shellCall : HookCall where
  eventType := .preToolUse
  toolName := "Bash"
  toolInput := .object [("command", .string "rm x")]

private theorem guard_dropped_quietly :
    widenings (PolicySnapshot.read asciiHost guardedShell) (PolicySnapshot.read asciiHost unguardedShell) = [] := by
  decide +kernel

/-- The deny pattern goes, the watch stays silent and the command is approved. -/
theorem dropped_deny_pattern_unseen :
    ∃ platform old new legacy call, old.trusted = true ∧ new.trusted = true ∧
      widenings (PolicySnapshot.read platform old) (PolicySnapshot.read platform new) = [] ∧
      LocallyApproved platform new.trustedConfigJson legacy call ∧
      ¬ LocallyApproved platform old.trustedConfigJson legacy call := by
  refine ⟨asciiHost, guardedShell, unguardedShell, none, shellCall, rfl, rfl, guard_dropped_quietly,
    ⟨"level:execute", by decide +kernel⟩, ?_⟩
  rintro ⟨decidedBy, approved⟩
  have asked : runLocally asciiHost guardedShell.trustedConfigJson none shellCall = .askDaemon := by decide +kernel
  rw [asked] at approved
  cases approved

theorem quiet_watch_sound_iff_shell :
    (LocallyApproved asciiHost unguardedShell.trustedConfigJson none shellCall →
        LocallyApproved asciiHost guardedShell.trustedConfigJson none shellCall) ↔
      ¬ WidensUnseen asciiHost guardedShell.trustedConfigJson unguardedShell.trustedConfigJson none shellCall :=
  quiet_watch_sound_iff guard_dropped_quietly

end Wisphive
