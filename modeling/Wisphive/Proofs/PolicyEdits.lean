import Wisphive.Proofs.HookPolicy

/-! Restricting edits of the configuration. They take approvals away, except where a
lost base approval hands the call from the deny patterns to the allow patterns. -/

namespace Wisphive.HookPolicy
open Foundation

variable {platform : HookPlatform} {first second legacy : Option Json} {call : HookCall}

/-- The level is kept or lowered. An absent level can only be lowered to nothing. -/
def Lowers (platform : HookPlatform) (first second : Option Json) : Prop :=
  configuredLevel platform second = configuredLevel platform first ∨
    configuredLevel platform second = some .off ∨
    ∃ low high, configuredLevel platform second = some low ∧ configuredLevel platform first = some high ∧
      low.rank ≤ high.rank

/-- The second configuration results from the first by restricting edits: the level is
lowered, tools leave the additions and join the removals and the prompts, deny patterns
are added and allow patterns removed. -/
structure Restricts (platform : HookPlatform) (first second : Option Json) : Prop where
  level : Lowers platform first second
  removed : ∀ toolName, listed first "auto_approve_remove" toolName = true →
    listed second "auto_approve_remove" toolName = true
  asked : ∀ toolName, listed first "always_ask" toolName = true → listed second "always_ask" toolName = true
  added : ∀ toolName, listed second "auto_approve_add" toolName = true →
    listed first "auto_approve_add" toolName = true
  denies : ∀ toolName, ∀ pattern ∈ rulePatterns first "deny_patterns" toolName,
    pattern ∈ rulePatterns second "deny_patterns" toolName
  allows : ∀ toolName, ∀ pattern ∈ rulePatterns second "allow_patterns" toolName,
    pattern ∈ rulePatterns first "allow_patterns" toolName
  released : ∀ toolName, listed second "always_ask_remove" toolName = listed first "always_ask_remove" toolName
  flags : ∀ key default, flag second key default = flag first key default

/-- The call loses its base approval, which a deny pattern had stopped, and an allow
pattern that is still there takes it up. -/
structure Flips (platform : HookPlatform) (first second legacy : Option Json) (call : HookCall) : Prop where
  based : baseApproved platform first legacy call.toolName = true
  unbased : baseApproved platform second legacy call.toolName = false
  denied : PatternMatches platform first "deny_patterns" call
  allowed : PatternMatches platform second "allow_patterns" call
  reaches : ReachesRules platform second call

theorem Lowers.approved {toolName : String} (lowers : Lowers platform first second)
    (approved : levelApproved platform second legacy toolName = true) :
    levelApproved platform first legacy toolName = true := by
  unfold levelApproved at approved ⊢
  rcases lowers with same | off | ⟨low, high, lower, higher, below⟩
  · rwa [same] at approved
  · rw [off] at approved
    exact absurd approved (by simp [off_includes])
  · rw [lower] at approved
    rw [higher]
    exact includes_mono below approved

namespace Restricts

theorem baseApproved {toolName : String} (edit : Restricts platform first second)
    (approved : HookPolicy.baseApproved platform second legacy toolName = true) :
    HookPolicy.baseApproved platform first legacy toolName = true := by
  simp only [HookPolicy.baseApproved, Bool.and_eq_true, Bool.not_eq_true', Bool.or_eq_true] at approved ⊢
  obtain ⟨kept, granted⟩ := approved
  constructor
  · cases removed : listed first "auto_approve_remove" toolName with
    | false => rfl
    | true => rw [edit.removed toolName removed] at kept; cases kept
  · rcases granted with added | level
    · exact .inl (edit.added toolName added)
    · exact .inr (edit.level.approved level)

theorem denied (edit : Restricts platform first second)
    (hit : PatternMatches platform first "deny_patterns" call) :
    PatternMatches platform second "deny_patterns" call := by
  obtain ⟨pattern, member, occurs⟩ := hit
  exact ⟨pattern, edit.denies call.toolName pattern member, occurs⟩

theorem allowed (edit : Restricts platform first second)
    (hit : PatternMatches platform second "allow_patterns" call) :
    PatternMatches platform first "allow_patterns" call := by
  obtain ⟨pattern, member, occurs⟩ := hit
  exact ⟨pattern, edit.allows call.toolName pattern member, occurs⟩

theorem deferred {toolName : String} (edit : Restricts platform first second)
    (prompted : HookPolicy.deferred first toolName = true) : HookPolicy.deferred second toolName = true := by
  rw [deferred_iff] at prompted ⊢
  rcases prompted with intrinsic | ⟨asked, kept, cautious⟩
  · exact .inl intrinsic
  · refine .inr ⟨edit.asked toolName asked, ?_, ?_⟩
    · rw [edit.released, kept]
    · rw [edit.flags, cautious]

theorem forceHumanReview (edit : Restricts platform first second) :
    HookPolicy.forceHumanReview platform second call = HookPolicy.forceHumanReview platform first call := by
  simp only [HookPolicy.forceHumanReview, allowSelfModification, edit.flags]

theorem eventAutoApprovedBy {eventType : HookEventType} (edit : Restricts platform first second) :
    HookPolicy.eventAutoApprovedBy second eventType = HookPolicy.eventAutoApprovedBy first eventType := by
  simp only [HookPolicy.eventAutoApprovedBy, edit.flags]

end Restricts

/-- After restricting edits a gated call is approved in one case only. -/
theorem restricting_edits_gate (edit : Restricts platform first second)
    (gated : Gated platform first legacy call) :
    LocallyApproved platform second legacy call ↔ Flips platform first second legacy call := by
  constructor
  · intro approved
    rw [locallyApproved_iff] at approved
    obtain ⟨prompted, unforced, approved⟩ := approved
    have promptedBefore : deferred first call.toolName = false := by
      cases before : deferred first call.toolName with
      | false => rfl
      | true => rw [edit.deferred before] at prompted; cases prompted
    have unforcedBefore : forceHumanReview platform first call = false := by
      rw [← edit.forceHumanReview, unforced]
    unfold Gated at gated
    rw [locallyApproved_iff] at gated
    rw [edit.eventAutoApprovedBy] at approved
    cases toggle : eventAutoApprovedBy first call.eventType with
    | some toggleKey =>
      refine absurd ⟨promptedBefore, unforcedBefore, .inl ?_⟩ gated
      rw [toggle]
      rfl
    | none =>
      rw [toggle] at approved
      obtain ⟨plain, approved⟩ := approved.resolve_left (by simp)
      have refused : ¬ (autoApprovedBy platform first legacy call.toolName call.toolInput).isSome = true :=
        fun rule => gated ⟨promptedBefore, unforcedBefore, .inr ⟨plain, rule⟩⟩
      rw [autoApprovedBy_iff] at approved refused
      cases after : baseApproved platform second legacy call.toolName with
      | true =>
        rw [after, if_pos rfl] at approved
        rw [edit.baseApproved after, if_pos rfl, not_not] at refused
        exact absurd (edit.denied refused) approved
      | false =>
        rw [after, if_neg Bool.false_ne_true] at approved
        cases before : baseApproved platform first legacy call.toolName with
        | false =>
          rw [before, if_neg Bool.false_ne_true] at refused
          exact absurd (edit.allowed approved) refused
        | true =>
          rw [before, if_pos rfl, not_not] at refused
          refine ⟨before, after, refused, approved, prompted, unforced, ?_, plain⟩
          rw [edit.eventAutoApprovedBy, toggle]
  · intro flips
    rw [flips.reaches.approved_iff, autoApprovedBy_iff, flips.unbased, if_neg Bool.false_ne_true]
    exact flips.allowed

/-- Every shell command is approved, but what says `rm` goes to the human. -/
private def shellPolicy : List (String × Json) :=
  [("auto_approve_level", .string "execute"),
    ("tool_rules", .object [("Bash", .object [("deny_patterns", .array [.string "rm"]),
      ("allow_patterns", .array [.string "rm x"])])])]

private def withShell : Option Json := some (.object shellPolicy)

private def withoutShell : Option Json :=
  some (.object (("auto_approve_remove", .array [.string "Bash"]) :: shellPolicy))

private def removal : HookCall where
  eventType := .preToolUse
  toolName := "Bash"
  toolInput := .object [("command", .string "rm x")]

private theorem shell_removed : Restricts asciiHost withShell withoutShell where
  level := .inl (by decide +kernel)
  removed _ removed := absurd removed Bool.false_ne_true
  asked _ asked := asked
  added _ added := added
  denies _ _ member := member
  allows _ _ member := member
  released _ := rfl
  flags key default := by
    by_cases edited : key = "auto_approve_remove"
    · subst edited
      rfl
    · have other : (key == "auto_approve_remove") = false := beq_false_of_ne edited
      simp only [flag, withShell, withoutShell, Option.bind_some, Json.get?, List.lookup_cons, other]

private theorem removal_gated : Gated asciiHost withShell none removal := by
  rintro ⟨decidedBy, approved⟩
  have asked : runLocally asciiHost withShell none removal = .askDaemon := by decide +kernel
  rw [asked] at approved
  cases approved

/-- A tool joins the removals, and the command that was gated is approved. -/
theorem removal_approves :
    ∃ platform first second legacy call, Restricts platform first second ∧ Gated platform first legacy call ∧
      LocallyApproved platform second legacy call := by
  refine ⟨asciiHost, withShell, withoutShell, none, removal, shell_removed, removal_gated, ?_⟩
  exact ⟨"tool_rules:Bash:allow_pattern", by decide +kernel⟩

theorem restricting_edits_gate_shell :
    LocallyApproved asciiHost withoutShell none removal ↔ Flips asciiHost withShell withoutShell none removal := by
  exact restricting_edits_gate shell_removed removal_gated

end Wisphive.HookPolicy
