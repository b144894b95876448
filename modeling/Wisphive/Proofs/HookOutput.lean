import Wisphive.HookOutput

/-! What a denial leaves for the agent is left by no other answer, whatever their texts hold. -/

namespace Wisphive.HookOutput
open Foundation

variable {resp denied other : HookResponse}

/-- The events whose answer is told to the agent. -/
def answers : HookEventType → Bool
  | .preToolUse | .permissionRequest | .stop | .subagentStop | .userPromptSubmit | .configChange | .preCompact
  | .elicitation | .elicitationResult | .teammateIdle | .taskCompleted => true
  | _ => false

/-- The exit code and some characters of stdout. -/
def signs (exit : HookExit) (places : List Nat) : Nat × List (Option Char) :=
  (exit.code, places.map fun place => exit.stdout.toList[place]?)

theorem signs_printed (output : Json) (places : List Nat) :
    signs (printed output) places = (0, places.map fun place => output.renderChars[place]?) := by
  rw [signs, printed, Json.render, String.toList_ofList]

theorem signs_silent (code : Nat) (places : List Nat) : signs { code } places = (code, places.map fun _ => none) := by
  rfl

/-- Denials leave one of the marks at these places, and no other response does. -/
def Marks (format : HookResponse → HookExit) (places : List Nat) (marks : List (Nat × List (Option Char))) : Prop :=
  ∀ resp, signs (format resp) places ∈ marks ↔ resp.decision = .deny

theorem Marks.told_apart {format : HookResponse → HookExit} {places : List Nat} {marks : List (Nat × List (Option Char))}
    (marked : Marks format places marks) (denies : denied.decision = .deny) (same : format denied = format other) :
    other.decision = .deny := by
  rw [← marked, ← same, marked]
  exact denies

theorem signs_block (reason : String) : signs (blockWith reason) [2] = (0, [some 'd']) ∧
    signs (blockWith reason) [13] = (0, [some 'b']) :=
  ⟨signs_printed _ _, signs_printed _ _⟩

theorem marks_stop : Marks formatStopResponse [13] [(0, [some 'b'])] := by
  intro resp
  unfold formatStopResponse
  cases resp.decision with
  | ask => simp [signs_silent]
  | deny => simp [(signs_block _).2]
  | approve =>
    have approves : signs (printed (.object [("decision", .string "approve")])) [13] = (0, [some 'a']) := signs_printed _ _
    dsimp only
    split
    · simp [signs_silent]
    · simp [approves]

theorem marks_block : Marks formatBlockResponse [2] [(0, [some 'd']), (2, [none])] := by
  intro resp
  unfold formatBlockResponse
  cases resp.decision with
  | ask => simp [signs_silent]
  | deny =>
    cases resp.message with
    | some reason => simp [(signs_block reason).1]
    | none => simp [signs_silent]
  | approve =>
    cases resp.additionalContext with
    | none => simp [signs_silent]
    | some context =>
      have approves : signs (printed (hookSpecificOutput [("additionalContext", .string context),
          ("hookEventName", .string resp.eventType.display)])) [2] = (0, [some 'h']) := signs_printed _ _
      simp [approves]

theorem marks_teammateIdle : Marks formatTeammateIdleResponse [] [(2, [])] := by
  intro resp
  unfold formatTeammateIdleResponse
  cases resp.decision <;> simp [signs, printed]

theorem marks_taskCompleted : Marks formatTaskCompletedResponse [] [(2, [])] := by
  intro resp
  unfold formatTaskCompletedResponse
  cases resp.decision <;> simp [signs]

/-- A permission response whose decision begins with a behavior. -/
def behaves (behavior : String) (members : List (String × Json)) : Json :=
  hookSpecificOutput
    [("decision", .object (("behavior", .string behavior) :: members)), ("hookEventName", .string "PermissionRequest")]

theorem signs_behaves (members : List (String × Json)) :
    signs (printed (behaves "deny" members)) [47] = (0, [some 'd']) ∧
      signs (printed (behaves "allow" members)) [47] = (0, [some 'a']) := by
  cases members <;> exact ⟨signs_printed _ _, signs_printed _ _⟩

theorem marks_permission : Marks formatPermissionResponse [47] [(0, [some 'd'])] := by
  intro resp
  unfold formatPermissionResponse permissionResponseValue permissionDecisionObject
  cases resp.decision with
  | ask => simp [signs_silent]
  | deny =>
    change signs (printed (behaves "deny" (Wire.optional "message" (resp.message.map .string)))) [47] ∈ _ ↔ _
    simp [(signs_behaves _).1]
  | approve =>
    dsimp only
    by_cases codex : resp.agentType = .codex
    · rw [if_pos codex]
      change signs (printed (behaves "allow" [])) [47] ∈ _ ↔ _
      simp [(signs_behaves _).2]
    · rw [if_neg codex, List.append_assoc]
      change signs (printed (behaves "allow" _)) [47] ∈ _ ↔ _
      simp [(signs_behaves _).2]

/-- An answer to an elicitation whose output begins with an action. -/
def acts (action : String) (first : String × Json) (rest : List (String × Json)) : Json :=
  hookSpecificOutput (("action", .string action) :: first :: rest)

theorem signs_acts (first : String × Json) (rest : List (String × Json)) :
    signs (printed (acts "accept" first rest)) [33] = (0, [some 'a']) ∧
      signs (printed (acts "cancel" first rest)) [33] = (0, [some 'c']) ∧
        signs (printed (acts "decline" first rest)) [33] = (0, [some 'd']) := by
  obtain ⟨name, value⟩ := first
  cases rest <;> exact ⟨signs_printed _ _, signs_printed _ _, signs_printed _ _⟩

theorem marks_elicitation : Marks formatElicitationResponse [33] [(0, [some 'd']), (0, [some 'c'])] := by
  intro resp
  unfold formatElicitationResponse elicitationAction
  cases resp.decision with
  | ask => simp [signs_silent]
  | deny =>
    dsimp only
    by_cases cancels : resp.message = some "cancel"
    · rw [if_pos cancels]
      change signs (printed (acts "cancel" _ [])) [33] ∈ _ ↔ _
      simp [(signs_acts _ _).2.1]
    · rw [if_neg cancels]
      change signs (printed (acts "decline" _ [])) [33] ∈ _ ↔ _
      simp [(signs_acts _ _).2.2]
  | approve =>
    dsimp only
    cases resp.updatedInput with
    | none =>
      change signs (printed (acts "accept" _ [])) [33] ∈ _ ↔ _
      simp [(signs_acts _ _).1]
    | some input =>
      change signs (printed (acts "accept" _ [_])) [33] ∈ _ ↔ _
      simp [(signs_acts _ _).1]

/-! ### Tool calls -/

/-- An answer about a tool call whose output begins with a permission. -/
def permits (permission : String) (members : List (String × Json)) : Json :=
  hookSpecificOutput (("hookEventName", .string "PreToolUse") :: ("permissionDecision", .string permission) :: members)

theorem signs_permits (members : List (String × Json)) :
    signs (printed (permits "deny" members)) [24, 74] = (0, [some 'h', some 'd']) ∧
      signs (printed (permits "allow" members)) [24, 74] = (0, [some 'h', some 'a']) ∧
        signs (printed (permits "ask" members)) [24, 74] = (0, [some 'h', some 'a']) := by
  cases members <;> exact ⟨signs_printed _ _, signs_printed _ _, signs_printed _ _⟩

/-- What a denial of a tool call leaves. -/
def toolMarks : List (Nat × List (Option Char)) :=
  [(0, [some 'h', some 'd']), (2, [none, none])]

theorem context_unmarked (context : String) (members : List (String × Json)) :
    signs (printed (hookSpecificOutput (("additionalContext", .string context) :: members))) [24, 74] ∉ toolMarks := by
  have first : (signs (printed (hookSpecificOutput (("additionalContext", .string context) :: members))) [24, 74]).2.head? =
      some (some 'a') := by
    rw [signs_printed]
    cases members <;> rfl
  intro marked
  rcases List.mem_cons.mp marked with same | same
  · rw [same] at first
    exact absurd first (by decide)
  · rw [List.mem_singleton.mp same] at first
    exact absurd first (by decide)

/-- Codex is told that a question or an edit is a denial. -/
def Withheld (resp : HookResponse) : Prop :=
  resp.agentType = .codex ∧ (resp.decision = .ask ∨ resp.decision = .approve ∧ resp.updatedInput.isSome = true)

theorem approval_unmarked (output : Json) (value : preToolUseApproveValue resp = some output) :
    signs (printed output) [24, 74] ∉ toolMarks := by
  unfold preToolUseApproveValue at value
  split at value
  · cases value
  · cases value
    cases resp.additionalContext with
    | none =>
      change signs (printed (permits "allow" _)) [24, 74] ∉ toolMarks
      simp [(signs_permits _).2.1, toolMarks]
    | some context => exact context_unmarked context _

theorem marks_preToolUse (resp : HookResponse) :
    signs (formatPreToolUse resp) [24, 74] ∈ toolMarks ↔ resp.decision = .deny ∨ Withheld resp := by
  unfold formatPreToolUse preToolUseStdout Withheld
  cases resp.decision with
  | ask =>
    dsimp only
    by_cases codex : resp.agentType = .codex
    · rw [if_pos codex]
      change signs (printed (permits "deny" _)) [24, 74] ∈ toolMarks ↔ _
      simp [(signs_permits _).1, toolMarks, codex]
    · rw [if_neg codex]
      change signs (printed (permits "ask" [])) [24, 74] ∈ toolMarks ↔ _
      simp [(signs_permits _).2.2, toolMarks, codex]
  | deny =>
    cases resp.message with
    | some reason =>
      change signs (printed (permits "deny" _)) [24, 74] ∈ toolMarks ↔ _
      simp [(signs_permits _).1, toolMarks]
    | none => simp [signs_silent, toolMarks]
  | approve =>
    dsimp only
    by_cases codex : resp.agentType = .codex
    · rw [if_pos codex]
      cases resp.updatedInput with
      | some input =>
        change signs (printed (permits "deny" _)) [24, 74] ∈ toolMarks ↔ _
        simp [(signs_permits _).1, toolMarks, codex]
      | none =>
        cases resp.additionalContext with
        | none => simp [signs_silent, toolMarks]
        | some context => exact iff_of_false (context_unmarked context _) (by simp)
    · rw [if_neg codex]
      cases value : preToolUseApproveValue resp with
      | none => simp [signs_silent, toolMarks, codex]
      | some output => exact iff_of_false (approval_unmarked output value) (by simp [codex])

/-! ### Every event -/

/-- A call that Codex is not to make is withheld in the words of a denial. -/
theorem Withheld.denial (withheld : Withheld resp) :
    ∃ reason, formatPreToolUse resp = printed (preToolUseDeny reason) := by
  obtain ⟨codex, asks | ⟨approves, edited⟩⟩ := withheld
  · refine ⟨codexNoNativePromptReason, ?_⟩
    rw [formatPreToolUse, preToolUseStdout, asks]
    simp only [if_pos codex]
    rfl
  · refine ⟨codexNoUpdatedInputReason, ?_⟩
    rw [formatPreToolUse, preToolUseStdout, approves]
    simp only [if_pos codex, if_pos edited]
    rfl

/-- What a denial of the same event leaves is left by a denial, or by what is withheld from Codex. -/
theorem of_denial (event : denied.eventType = resp.eventType) (denies : denied.decision = .deny)
    (answered : answers resp.eventType = true) (same : formatAndExit denied = formatAndExit resp) :
    resp.decision = .deny ∨ resp.eventType = .preToolUse ∧ Withheld resp := by
  unfold formatAndExit at same
  rw [event] at same
  cases kind : resp.eventType <;> rw [kind] at same answered <;> dsimp only at same
  case preToolUse =>
    have marked := (marks_preToolUse denied).mpr (.inl denies)
    rw [same, marks_preToolUse] at marked
    exact marked.imp_right fun withheld => ⟨rfl, withheld⟩
  case permissionRequest => exact .inl (marks_permission.told_apart denies same)
  case stop | subagentStop => exact .inl (marks_stop.told_apart denies same)
  case userPromptSubmit | configChange | preCompact => exact .inl (marks_block.told_apart denies same)
  case elicitation | elicitationResult => exact .inl (marks_elicitation.told_apart denies same)
  case teammateIdle => exact .inl (marks_teammateIdle.told_apart denies same)
  case taskCompleted => exact .inl (marks_taskCompleted.told_apart denies same)
  all_goals cases answered

/-- What is left for the agent is what a denial for the same event and agent would leave exactly if
the response denies, or withholds a call from Codex. -/
theorem denial_told_apart (resp : HookResponse) (answered : answers resp.eventType = true) :
    (∃ denied : HookResponse, denied.eventType = resp.eventType ∧ denied.agentType = resp.agentType ∧
      denied.decision = .deny ∧ formatAndExit denied = formatAndExit resp) ↔
    resp.decision = .deny ∨ resp.eventType = .preToolUse ∧ Withheld resp := by
  constructor
  · rintro ⟨denied, event, _, denies, same⟩
    exact of_denial event denies answered same
  · rintro (denies | ⟨event, withheld⟩)
    · exact ⟨resp, rfl, rfl, denies, rfl⟩
    · obtain ⟨reason, same⟩ := withheld.denial
      refine ⟨{ decision := .deny, message := some reason, eventType := resp.eventType, agentType := resp.agentType },
        rfl, rfl, rfl, ?_⟩
      simp only [formatAndExit, event, same]
      rfl

theorem formatPreToolUse_code : (formatPreToolUse resp).code = (preToolUseStdout resp).2 := by
  unfold formatPreToolUse
  split
  · next printed => rw [printed]
  · next silent => rw [silent]

/-- Only a denial ends with another code. -/
theorem code_kept (kept : resp.decision ≠ .deny) : (formatAndExit resp).code = 0 := by
  unfold formatAndExit
  cases resp.eventType <;> dsimp only
  case preToolUse =>
    rw [formatPreToolUse_code, preToolUseStdout]
    cases decided : resp.decision with
    | deny => exact absurd decided kept
    | ask =>
      dsimp only
      split <;> rfl
    | approve =>
      dsimp only
      split
      · cases resp.updatedInput <;> cases resp.additionalContext <;> rfl
      · rfl
  case permissionRequest =>
    unfold formatPermissionResponse
    split <;> rfl
  case elicitation | elicitationResult =>
    unfold formatElicitationResponse
    split <;> rfl
  case stop | subagentStop =>
    unfold formatStopResponse
    cases decided : resp.decision with
    | deny => exact absurd decided kept
    | ask => rfl
    | approve =>
      dsimp only
      split <;> rfl
  case userPromptSubmit | configChange | preCompact =>
    unfold formatBlockResponse
    cases decided : resp.decision with
    | deny => exact absurd decided kept
    | ask => rfl
    | approve => cases resp.additionalContext <;> rfl
  case teammateIdle =>
    unfold formatTeammateIdleResponse
    cases decided : resp.decision with
    | deny => exact absurd decided kept
    | ask | approve => rfl
  case taskCompleted =>
    unfold formatTaskCompletedResponse
    cases decided : resp.decision with
    | deny => exact absurd decided kept
    | ask | approve => rfl

/-- A tool call with an edited input. -/
def editedCall (agentType : AgentType) : HookResponse where
  decision := .approve
  eventType := .preToolUse
  agentType
  updatedInput := some (.object [("command", .string "deny")])

/-- To Codex an edited call is denied, and to Claude Code it is not. -/
theorem denial_told_apart_edited :
    (∃ denied : HookResponse, denied.eventType = .preToolUse ∧ denied.agentType = .codex ∧ denied.decision = .deny ∧
      formatAndExit denied = formatAndExit (editedCall .codex)) ∧
    ¬∃ denied : HookResponse, denied.eventType = .preToolUse ∧ denied.agentType = .claudeCode ∧ denied.decision = .deny ∧
      formatAndExit denied = formatAndExit (editedCall .claudeCode) := by
  refine ⟨(denial_told_apart (editedCall .codex) rfl).mpr (.inr ⟨rfl, rfl, .inr ⟨rfl, rfl⟩⟩), fun same => ?_⟩
  rcases (denial_told_apart (editedCall .claudeCode) rfl).mp same with denies | ⟨_, codex, _⟩
  · cases denies
  · cases codex

end Wisphive.HookOutput
