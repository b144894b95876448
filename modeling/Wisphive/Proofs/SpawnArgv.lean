import Mathlib.Data.List.Basic
import Wisphive.Proofs.Assignments
import Wisphive.SpawnArgv

/-! Which arguments of a managed spawn are text of the request. A request that passed the checks
cannot turn its text into a flag, but for the two system prompts. -/

namespace Wisphive.SpawnArgv
open Foundation

variable {host : SpawnHost} {overrides : OverrideHost} {req : SpawnAgentRequest} {project : CanonicalPath} {sessionId : Uuid}
  {args front back : List Argument} {arg : Argument} {text name value flag : String} {given : OsText} {rest : List OsText}

/-! ### The checks -/

theorem reject_ok {bad : Prop} [Decidable bad] {message : String} (passed : reject bad message = .ok ()) : ¬ bad := by
  intro held
  rw [reject, if_pos held] at passed
  cases passed

theorem checked_ok {Value : Type} {check : Value → Except String Unit} {field : Option Value} (passed : checked check field = .ok ())
    {value : Value} (held : value ∈ field) : check value = .ok () := by
  rw [Option.mem_def] at held
  subst held
  exact passed

theorem shortFlag_dashless (passed : validateShortFlag name value = .ok ()) : beginsWithDash value = false := by
  obtain ⟨_, _, passed⟩ := Fold.bind_ok passed
  obtain ⟨_, _, passed⟩ := Fold.bind_ok passed
  obtain ⟨_, plain, _⟩ := Fold.bind_ok passed
  exact Bool.eq_false_iff.mpr (reject_ok plain)

theorem forM_ok {Item : Type} {check : Item → Except String Unit} {items : List Item} (passed : items.forM check = .ok ()) :
    ∀ item ∈ items, check item = .ok () := by
  induction items with
  | nil => exact fun item member => nomatch member
  | cons first rest ih =>
    obtain ⟨_, head, tail⟩ := Fold.bind_ok passed
    exact List.forall_mem_cons.mpr ⟨head, ih tail⟩

theorem toolFilters_dashless {tools : List String} (passed : validateToolFilters name tools = .ok ()) :
    ∀ tool ∈ tools, beginsWithDash tool = false := by
  obtain ⟨_, _, passed⟩ := Fold.bind_ok passed
  obtain ⟨_, _, passed⟩ := Fold.bind_ok passed
  exact fun tool member => shortFlag_dashless (forM_ok passed tool member)

/-- What the checks leave of a request. -/
structure Validated (req : SpawnAgentRequest) : Prop where
  prompt : beginsWithDash req.prompt = false
  model : ∀ model ∈ req.model, beginsWithDash model = false
  name : ∀ name ∈ req.name, beginsWithDash name = false
  reasoning : ∀ reasoning ∈ req.reasoning, reasoning ∈ supportedReasoning req.agentType
  permissionMode : ∀ mode ∈ req.permissionMode, mode ∈ ["default", "plan"]
  allowedTools : ∀ tools ∈ req.allowedTools, ∀ tool ∈ tools, beginsWithDash tool = false
  disallowedTools : ∀ tools ∈ req.disallowedTools, ∀ tool ∈ tools, beginsWithDash tool = false
  outputFormat : ∀ format ∈ req.outputFormat, format ∈ ["text", "json", "stream-json"]
  codex : req.agentType = .codex → req.systemPrompt = none ∧ req.appendSystemPrompt = none ∧ req.allowedTools = none ∧
    req.disallowedTools = none

theorem validated (accepted : validateSpawnRequest host req = .ok project) : Validated req := by
  obtain ⟨_, _, accepted⟩ := Fold.bind_ok accepted
  obtain ⟨_, _, accepted⟩ := Fold.bind_ok accepted
  obtain ⟨_, _, accepted⟩ := Fold.bind_ok accepted
  obtain ⟨_, _, accepted⟩ := Fold.bind_ok accepted
  obtain ⟨_, prompt, accepted⟩ := Fold.bind_ok accepted
  obtain ⟨_, model, accepted⟩ := Fold.bind_ok accepted
  obtain ⟨_, name, accepted⟩ := Fold.bind_ok accepted
  obtain ⟨_, reasoning, accepted⟩ := Fold.bind_ok accepted
  obtain ⟨_, _, accepted⟩ := Fold.bind_ok accepted
  obtain ⟨_, mode, accepted⟩ := Fold.bind_ok accepted
  obtain ⟨_, _, accepted⟩ := Fold.bind_ok accepted
  obtain ⟨_, _, accepted⟩ := Fold.bind_ok accepted
  obtain ⟨_, allowed, accepted⟩ := Fold.bind_ok accepted
  obtain ⟨_, disallowed, accepted⟩ := Fold.bind_ok accepted
  obtain ⟨_, _, accepted⟩ := Fold.bind_ok accepted
  obtain ⟨_, _, accepted⟩ := Fold.bind_ok accepted
  obtain ⟨_, _, accepted⟩ := Fold.bind_ok accepted
  obtain ⟨_, format, accepted⟩ := Fold.bind_ok accepted
  obtain ⟨_, _, accepted⟩ := Fold.bind_ok accepted
  refine ⟨Bool.eq_false_iff.mpr (reject_ok prompt), fun _ held => shortFlag_dashless (checked_ok model held),
    fun _ held => shortFlag_dashless (checked_ok name held), fun _ held => not_not.mp (reject_ok (checked_ok reasoning held)),
    fun _ held => not_not.mp (reject_ok (checked_ok mode held)), fun _ held => toolFilters_dashless (checked_ok allowed held),
    fun _ held => toolFilters_dashless (checked_ok disallowed held),
    fun _ held => not_not.mp (reject_ok (checked_ok format held)), fun codex => ?_⟩
  rw [if_pos codex] at accepted
  split at accepted
  next => cases accepted
  next none =>
    have unset := List.find?_eq_none.mp none
    simp only [unsupportedForCodex, List.forall_mem_cons, Bool.not_eq_true, Option.isSome_eq_false_iff,
      Option.isNone_iff_eq_none] at unset
    exact ⟨unset.2.2.2.1, unset.2.2.2.2.1, unset.2.2.2.2.2.1, unset.2.2.2.2.2.2.1⟩

/-! ### The arguments -/

/-- The vector is safe: text of the request is no flag, the prompt is last, what follows a list
of tools up to the next flag is on the list, and a Codex vector passes the audit with the
reasoning effort as its one override. -/
structure ArgvSafe (overrides : OverrideHost) (req : SpawnAgentRequest) (args : List Argument) : Prop where
  dashless : ∀ given, .given given ∈ args → given.dashed = false
  prompt : args.getLast? = some (.given (.text req.prompt))
  allowed : ∀ front back, args = front ++ .flag "--tools" :: back →
    ∀ arg ∈ back.takeWhile (!·.value.dashed), ∃ tool ∈ req.allowedTools.getD [], arg = .given (.text tool)
  disallowed : ∀ front back, args = front ++ .flag "--disallowedTools" :: back →
    ∀ arg ∈ back.takeWhile (!·.value.dashed), ∃ tool ∈ req.disallowedTools.getD [], arg = .given (.text tool)
  audited : req.agentType = .codex → auditCodexSessionArgv overrides args = .ok () ∧
    configOverrides (commandArgv args) = (req.reasoning.map fun reasoning => OsText.text (effortAssignment reasoning)).toList

theorem mem_option {field : Option String} : .given given ∈ option flag field ↔ ∃ text ∈ field, given = .text text := by
  cases field <;> simp [option]

theorem mem_variadic {tools : Option (List String)} :
    .given given ∈ variadic flag tools ↔ ∃ names ∈ tools, ∃ tool ∈ names, given = .text tool := by
  cases tools <;> simp [variadic, eq_comm]

theorem given_not_mem_switch {on : Bool} : .given given ∉ switch flag on := by
  cases on <;> simp [switch]

theorem reasoning_dashless : ∀ agentType, ∀ reasoning ∈ supportedReasoning agentType, beginsWithDash reasoning = false := by
  intro agentType
  cases agentType <;> decide

theorem number_dashless (number : Nat) : beginsWithDash (toString number) = false := by
  rw [beginsWithDash, decide_eq_false_iff_not]
  intro dash
  have digits : (toString number).toList = Nat.toDigits 10 number := Nat.toList_repr
  rw [digits] at dash
  have digit : '-'.isDigit = true := Nat.isDigit_of_mem_toDigits (by decide) (by decide) (List.mem_of_head? dash)
  cases digit

/-- The text of a path from the root is no flag. -/
theorem project_dashless : project.path.dashed = false := by
  have absolute := project.absolute
  cases held : project.path with
  | text value =>
    rw [held, OsText.rooted, OsText.bytes] at absolute
    rw [OsText.dashed, decide_eq_false_iff_not]
    intro dash
    obtain ⟨rest, shape⟩ := List.head?_eq_some_iff.mp dash
    rw [shape] at absolute
    cases absolute
  | raw value =>
    rw [held, OsText.rooted, OsText.bytes, decide_eq_true_iff] at absolute
    rw [OsText.dashed, absolute]
    decide

theorem toList_effort (reasoning : String) : (effortAssignment reasoning).toList =
    "model_reasoning_effort".toList ++ '=' :: '"' :: (reasoning.toList ++ "\"".toList) := by
  have whole : (effortAssignment reasoning).toList = ("model_reasoning_effort=\"" ++ reasoning).toList ++ "\"".toList :=
    String.toList_append ..
  have inner : ("model_reasoning_effort=\"" ++ reasoning).toList = "model_reasoning_effort=\"".toList ++ reasoning.toList :=
    String.toList_append ..
  have key : "model_reasoning_effort=\"".toList = "model_reasoning_effort".toList ++ ['=', '"'] := by decide +kernel
  rw [whole, inner, key, List.append_assoc, List.append_assoc]
  rfl

theorem effort_dashless (reasoning : String) : beginsWithDash (effortAssignment reasoning) = false := by
  have head : (effortAssignment reasoning).toList.head? = some 'm' := by
    rw [toList_effort]
    rfl
  exact decide_eq_false (by rw [head]; decide)

/-- Only the system prompts may bring a dash. -/
theorem given_claudeArgs (checks : Validated req) (member : .given given ∈ claudeArgs req sessionId) :
    given.dashed = false ∨ ∃ text, given = .text text ∧ (text ∈ req.systemPrompt ∨ text ∈ req.appendSystemPrompt) := by
  simp only [claudeArgs, List.mem_append, mem_option, mem_variadic, given_not_mem_switch, List.mem_cons, List.not_mem_nil,
    reduceCtorEq, false_or, or_false, Argument.given.injEq] at member
  rcases member with ((((((((((⟨text, held, rfl⟩ | ⟨text, held, rfl⟩) | ⟨text, held, rfl⟩) | ⟨text, held, rfl⟩) |
    ⟨text, held, rfl⟩) | ⟨text, held, rfl⟩) | ⟨text, held, rfl⟩) | ⟨tools, held, text, among, rfl⟩) |
    ⟨tools, held, text, among, rfl⟩) | ⟨text, held, rfl⟩) | rfl)
  · exact .inl (checks.model text held)
  · exact .inl (checks.name text held)
  · exact .inl (reasoning_dashless _ text (checks.reasoning text held))
  · obtain ⟨turns, _, rfl⟩ := Option.map_eq_some_iff.mp held
    exact .inl (number_dashless turns)
  · have plain : ∀ mode ∈ ["default", "plan"], beginsWithDash mode = false := by decide
    exact .inl (plain text (checks.permissionMode text (Option.eq_some_of_filter_eq_some held)))
  · exact .inr ⟨text, rfl, .inl held⟩
  · exact .inr ⟨text, rfl, .inr held⟩
  · exact .inl (checks.allowedTools tools held text among)
  · exact .inl (checks.disallowedTools tools held text among)
  · have plain : ∀ format ∈ ["text", "json", "stream-json"], beginsWithDash format = false := by decide
    exact .inl (plain text (checks.outputFormat text held))
  · exact .inl checks.prompt

theorem given_codexArgs (checks : Validated req) (member : .given given ∈ codexArgs req project) : given.dashed = false := by
  simp only [codexArgs, List.mem_append, mem_option, given_not_mem_switch, List.mem_cons, List.not_mem_nil, reduceCtorEq, false_or,
    or_false, Argument.given.injEq] at member
  rcases member with ((rfl | ⟨text, held, rfl⟩) | ⟨text, held, rfl⟩) | rfl
  · exact project_dashless
  · exact checks.model text held
  · obtain ⟨reasoning, _, rfl⟩ := Option.map_eq_some_iff.mp held
    exact effort_dashless reasoning
  · exact checks.prompt

/-! ### Lists of tools -/

/-- A vector that goes on with a flag. -/
def Flagged (args : List Argument) : Prop :=
  ∃ flag rest, args = .flag flag :: rest ∧ (Argument.flag flag).value.dashed = true

theorem Flagged.append_left (flagged : Flagged back) (either : front = [] ∨ Flagged front) : Flagged (front ++ back) := by
  rcases either with rfl | ⟨flag, rest, rfl, dashed⟩
  · exact flagged
  · exact ⟨flag, rest ++ back, rfl, dashed⟩

theorem option_flagged {field : Option String} (dashed : beginsWithDash flag = true) :
    option flag field = [] ∨ Flagged (option flag field) := by
  cases field with
  | none => exact .inl rfl
  | some text => exact .inr ⟨flag, _, rfl, dashed⟩

theorem variadic_flagged {tools : Option (List String)} (dashed : beginsWithDash flag = true) :
    variadic flag tools = [] ∨ Flagged (variadic flag tools) := by
  cases tools with
  | none => exact .inl rfl
  | some tools => exact .inr ⟨flag, _, rfl, dashed⟩

theorem switch_flagged {on : Bool} (dashed : beginsWithDash flag = true) : switch flag on = [] ∨ Flagged (switch flag on) := by
  cases on with
  | false => exact .inl rfl
  | true => exact .inr ⟨flag, _, rfl, dashed⟩

/-- What stands behind the one flag of a list, up to the next flag, is the list. -/
theorem behind_variadic {tools : Option (List String)} {before behind : List Argument}
    (plain : ∀ names ∈ tools, ∀ tool ∈ names, beginsWithDash tool = false) (flagged : Flagged back)
    (first : .flag flag ∉ front) (last : .flag flag ∉ back)
    (split : front ++ variadic flag tools ++ back = before ++ .flag flag :: behind) :
    ∀ arg ∈ behind.takeWhile (!·.value.dashed), ∃ tool ∈ tools.getD [], arg = .given (.text tool) := by
  cases tools with
  | none =>
    have member : .flag flag ∈ front ++ variadic flag none ++ back := by rw [split]; simp
    rw [variadic, List.append_nil, List.mem_append] at member
    exact absurd member (not_or.mpr ⟨first, last⟩)
  | some names =>
    rw [variadic, List.append_assoc, List.cons_append] at split
    have later : .flag flag ∉ (names.map fun tool => Argument.given (.text tool)) ++ back := by
      rw [List.mem_append, not_or]
      exact ⟨by simp, last⟩
    obtain ⟨_, _, same⟩ := (List.append_cons_inj_of_notMem first later).mp split
    obtain ⟨next, rest, shape, dashed⟩ := flagged
    rw [← same, List.takeWhile_append_of_pos, shape, List.takeWhile_cons_of_neg (by simp [dashed]), List.append_nil]
    · intro arg member
      obtain ⟨tool, among, rfl⟩ := List.mem_map.mp member
      exact ⟨tool, among, rfl⟩
    · intro arg member
      obtain ⟨tool, among, rfl⟩ := List.mem_map.mp member
      have dashless : (OsText.text tool).dashed = false := plain names rfl tool among
      rw [Argument.value, dashless]
      rfl

theorem flag_mem_option {field : Option String} {other : String} :
    .flag other ∈ option flag field ↔ other = flag ∧ field.isSome = true := by
  cases field <;> simp [option]

theorem flag_mem_variadic {tools : Option (List String)} {other : String} :
    .flag other ∈ variadic flag tools ↔ other = flag ∧ tools.isSome = true := by
  cases tools <;> simp [variadic]

theorem flag_mem_switch {on : Bool} {other : String} : .flag other ∈ switch flag on ↔ other = flag ∧ on = true := by
  cases on <;> simp [switch]

/-- The Claude vector before its lists of tools. -/
def claudeHead (req : SpawnAgentRequest) (sessionId : Uuid) : List Argument :=
  [.own "claude", .flag "-p", .flag "--setting-sources", .own "project", .flag "--dangerously-skip-permissions",
      .flag "--session-id", .own (uuidText sessionId)] ++
    option "--model" req.model ++ option "--name" req.name ++ option "--effort" req.reasoning ++
    option "--max-turns" (req.maxTurns.map toString) ++ option "--permission-mode" (req.permissionMode.filter (· ≠ "default")) ++
    option "--system-prompt" req.systemPrompt ++ option "--append-system-prompt" req.appendSystemPrompt

/-- The Claude vector behind them. -/
def claudeTail (req : SpawnAgentRequest) : List Argument :=
  option "--output-format" req.outputFormat ++ (switch "--verbose" req.verbose ++ [.flag "--", .given (.text req.prompt)])

theorem claudeTail_flagged : Flagged (claudeTail req) := by
  have prompt : Flagged [.flag "--", .given (.text req.prompt)] := ⟨"--", _, rfl, by decide⟩
  exact (prompt.append_left (switch_flagged (by decide))).append_left (option_flagged (by decide))

theorem claudeArgs_eq : claudeArgs req sessionId = claudeHead req sessionId ++ variadic "--tools" req.allowedTools ++
    (variadic "--disallowedTools" req.disallowedTools ++ claudeTail req) := by
  simp only [claudeArgs, claudeHead, claudeTail, List.append_assoc]

theorem claudeHead_unlisted {other : String} (listed : other ∈ ["--tools", "--disallowedTools"]) :
    .flag other ∉ claudeHead req sessionId := by
  simp only [List.mem_cons, List.not_mem_nil, or_false] at listed
  rcases listed with rfl | rfl <;> simp [claudeHead, flag_mem_option]

theorem claudeTail_unlisted {other : String} (listed : other ∈ ["--tools", "--disallowedTools"]) : .flag other ∉ claudeTail req := by
  simp only [List.mem_cons, List.not_mem_nil, or_false] at listed
  rcases listed with rfl | rfl <;> simp [claudeTail, flag_mem_option, flag_mem_switch]

theorem claude_allowed (checks : Validated req) {before behind : List Argument}
    (split : claudeArgs req sessionId = before ++ .flag "--tools" :: behind) :
    ∀ arg ∈ behind.takeWhile (!·.value.dashed), ∃ tool ∈ req.allowedTools.getD [], arg = .given (.text tool) := by
  have last : .flag "--tools" ∉ variadic "--disallowedTools" req.disallowedTools ++ claudeTail req := by
    rw [List.mem_append, not_or, flag_mem_variadic]
    exact ⟨fun same => absurd same.1 (by decide), claudeTail_unlisted (by decide)⟩
  exact behind_variadic checks.allowedTools (claudeTail_flagged.append_left (variadic_flagged (by decide)))
    (claudeHead_unlisted (by decide)) last (claudeArgs_eq.symm.trans split)

theorem claude_disallowed (checks : Validated req) {before behind : List Argument}
    (split : claudeArgs req sessionId = before ++ .flag "--disallowedTools" :: behind) :
    ∀ arg ∈ behind.takeWhile (!·.value.dashed), ∃ tool ∈ req.disallowedTools.getD [], arg = .given (.text tool) := by
  have first : .flag "--disallowedTools" ∉ claudeHead req sessionId ++ variadic "--tools" req.allowedTools := by
    rw [List.mem_append, not_or, flag_mem_variadic]
    exact ⟨claudeHead_unlisted (by decide), fun same => absurd same.1 (by decide)⟩
  rw [claudeArgs_eq, ← List.append_assoc] at split
  exact behind_variadic checks.disallowedTools claudeTail_flagged first (claudeTail_unlisted (by decide)) split

/-- A Codex vector has no list of tools. -/
theorem codex_unlisted {other : String} (listed : other ∈ ["--tools", "--disallowedTools"]) : .flag other ∉ codexArgs req project := by
  simp only [List.mem_cons, List.not_mem_nil, or_false] at listed
  rcases listed with rfl | rfl <;> simp [codexArgs, flag_mem_option, flag_mem_switch]

/-! ### The audit -/

/-- An argument that the audit passes over. -/
structure Plain (arg : OsText) : Prop where
  text : ∃ value, arg = .text value ∧ value ≠ "-c" ∧ value ≠ "--config" ∧ inlineOverride value = none ∧ leadsAway value = false

theorem audit_plain (plain : Plain given) : auditCodexArgs overrides false (given :: rest) = auditCodexArgs overrides false rest := by
  obtain ⟨value, rfl, short, long, inline, stays⟩ := plain.text
  have passed : auditArg overrides value = .ok () := by
    rw [auditArg, inline]
    exact if_neg (by simp [stays])
  rw [auditCodexArgs, OsText.toStr]
  dsimp only
  rw [if_neg (by decide), if_neg (not_or.mpr ⟨short, long⟩), passed]
  rfl

theorem overrides_plain (plain : Plain given) : configOverrides (given :: rest) = configOverrides rest := by
  obtain ⟨value, rfl, short, long, inline, stays⟩ := plain.text
  cases rest with
  | nil =>
    rw [configOverrides, OsText.toStr, Option.bind_some, inline]
    rfl
  | cons next more =>
    rw [configOverrides, if_neg (by simp [short, long]), OsText.toStr, Option.bind_some, inline]
    rfl

theorem audit_append {front : List OsText} (plain : ∀ arg ∈ front, Plain arg) :
    auditCodexArgs overrides false (front ++ rest) = auditCodexArgs overrides false rest := by
  induction front with
  | nil => rfl
  | cons arg more ih =>
    rw [List.forall_mem_cons] at plain
    rw [List.cons_append, audit_plain plain.1, ih plain.2]

theorem overrides_append {front : List OsText} (plain : ∀ arg ∈ front, Plain arg) :
    configOverrides (front ++ rest) = configOverrides rest := by
  induction front with
  | nil => rfl
  | cons arg more ih =>
    rw [List.forall_mem_cons] at plain
    rw [List.cons_append, overrides_plain plain.1, ih plain.2]

theorem stripPrefix?_none {mark : String} (dashed : beginsWithDash mark = true) (plain : beginsWithDash text = false) :
    stripPrefix? mark text = none := by
  refine if_neg fun leads => ?_
  obtain ⟨rest, shape⟩ := leads
  have marked : mark.toList.head? = some '-' := of_decide_eq_true dashed
  obtain ⟨more, split⟩ := List.head?_eq_some_iff.mp marked
  rw [beginsWithDash, ← shape, split] at plain
  cases plain

/-- Text that is no flag is passed over. -/
theorem plain_of_dashless (dashless : beginsWithDash text = false) : Plain (.text text) := by
  have differs {flag : String} (dashed : beginsWithDash flag = true) : text ≠ flag := by
    rintro rfl
    cases dashless.symm.trans dashed
  have none {mark : String} (dashed : beginsWithDash mark = true) := stripPrefix?_none dashed dashless
  refine ⟨text, rfl, differs (by decide), differs (by decide), ?_, ?_⟩
  · rw [inlineOverride, none (by decide), none (by decide)]
    rfl
  · have flags (flag : String) (listed : flag ∈ ["--enable", "--disable", "-p", "--profile", "--ignore-user-config"]) :
        beginsWithDash flag = true := by
      revert flag
      decide
    have marks (mark : String) (listed : mark ∈ ["--enable=", "--disable=", "--profile="]) : beginsWithDash mark = true := by
      revert mark
      decide
    rw [leadsAway, @none "-p" (by decide), Bool.or_eq_false_iff, Bool.or_eq_false_iff]
    refine ⟨⟨decide_eq_false fun member => differs (flags text member) rfl, ?_⟩, rfl⟩
    rw [List.any_eq_false]
    intro mark member
    rw [none (marks mark member)]
    exact Bool.false_ne_true

/-- The project is passed over where it is text. -/
theorem plain_project {value : String} (held : project.path = .text value) : Plain project.path := by
  have dashless := @project_dashless project
  rw [held] at dashless ⊢
  exact plain_of_dashless dashless

/-! ### The reasoning effort -/

/-- The TOML reader takes the one key of the assignment for what it is. -/
def ReadsEffort (overrides : OverrideHost) : Prop :=
  overrides.parse "model_reasoning_effort = true" = .ok [("model_reasoning_effort", .boolean true)]

theorem auditOverride_effort (reads : ReadsEffort overrides) (reasoning : String) {arg : String} :
    auditOverride overrides (effortAssignment reasoning) arg = .ok () := by
  have halves : Redact.splitOnce '=' (effortAssignment reasoning).toList =
      some ("model_reasoning_effort".toList, '"' :: (reasoning.toList ++ "\"".toList)) := by
    rw [toList_effort]
    exact Redact.splitOnce_of_not_mem (by decide +kernel)
  have trimmed : EventIngest.trim (String.ofList "model_reasoning_effort".toList) = "model_reasoning_effort" := by decide +kernel
  have path : parseCodexOverrideKeyPath overrides (effortAssignment reasoning) = .ok ["model_reasoning_effort"] := by
    have probe : overrides.parse ("model_reasoning_effort" ++ " = true") = .ok [("model_reasoning_effort", .boolean true)] := reads
    rw [parseCodexOverrideKeyPath, halves]
    dsimp only
    rw [trimmed, if_neg (by decide), probe]
    rfl
  rw [auditOverride, hookRelevantCodexOverride, path]
  rfl

/-- The daemon's own arguments of a Codex vector but for `--config`. -/
def codexOwn : List String :=
  ["codex", "exec", "--sandbox", "workspace-write", "--skip-git-repo-check", "--dangerously-bypass-hook-trust", "-C", "--model",
    "--json"]

theorem plain_codexOwn (own : text ∈ codexOwn) : Plain (.text text) := by
  have each : ∀ text ∈ codexOwn, text ≠ "-c" ∧ text ≠ "--config" ∧ inlineOverride text = none ∧ leadsAway text = false := by
    decide +kernel
  exact ⟨text, rfl, each text own⟩

/-- The Codex vector before its override. -/
def codexHead (req : SpawnAgentRequest) (project : CanonicalPath) : List OsText :=
  commandArgv ([.own "codex", .own "exec", .flag "--sandbox", .own "workspace-write", .flag "--skip-git-repo-check",
    .flag "--dangerously-bypass-hook-trust", .flag "-C", .given project.path] ++ option "--model" req.model)

/-- The Codex vector behind it. -/
def codexTail (req : SpawnAgentRequest) : List OsText :=
  commandArgv (switch "--json" (req.outputFormat.any (· ∈ ["json", "stream-json"])) ++ [.given (.text req.prompt)])

theorem codexHead_plain (checks : Validated req) (held : project.path = .text value) : ∀ arg ∈ codexHead req project, Plain arg := by
  intro arg member
  rw [codexHead, commandArgv, List.map_append, List.mem_append] at member
  rcases member with own | model
  · simp only [List.map_cons, List.map_nil, List.mem_cons, List.not_mem_nil, or_false, Argument.value] at own
    rcases own with rfl | rfl | rfl | rfl | rfl | rfl | rfl | rfl
    case inr.inr.inr.inr.inr.inr.inr => exact plain_project held
    all_goals exact plain_codexOwn (by decide)
  · cases chosen : req.model with
    | none =>
      rw [chosen] at model
      cases model
    | some name =>
      rw [chosen] at model
      simp only [option, List.map_cons, List.map_nil, List.mem_cons, List.not_mem_nil, or_false, Argument.value] at model
      rcases model with rfl | rfl
      · exact plain_codexOwn (by decide)
      · exact plain_of_dashless (checks.model name chosen)

theorem codexTail_plain (checks : Validated req) : ∀ arg ∈ codexTail req, Plain arg := by
  intro arg member
  rw [codexTail, commandArgv, List.map_append, List.mem_append] at member
  rcases member with json | prompt
  · rw [switch] at json
    split at json
    · rw [List.map_singleton, List.mem_singleton] at json
      subst json
      exact plain_codexOwn (by decide)
    · cases json
  · rw [List.map_singleton, List.mem_singleton] at prompt
    subst prompt
    exact plain_of_dashless checks.prompt

theorem codexArgs_eq : commandArgv (codexArgs req project) =
    codexHead req project ++ (commandArgv (option "--config" (req.reasoning.map effortAssignment)) ++ codexTail req) := by
  simp only [codexArgs, codexHead, codexTail, commandArgv, List.map_append, List.append_assoc]

/-- The audit accepts the vector, and the reasoning effort is its one override. -/
theorem codex_audited (checks : Validated req) (reads : ReadsEffort overrides) (held : project.path = .text value) :
    auditCodexSessionArgv overrides (codexArgs req project) = .ok () ∧
      configOverrides (commandArgv (codexArgs req project)) =
        (req.reasoning.map fun reasoning => OsText.text (effortAssignment reasoning)).toList := by
  have audited : auditCodexArgs overrides false (codexTail req) = .ok () := by
    have whole := @audit_append overrides [] (codexTail req) (codexTail_plain checks)
    rw [List.append_nil] at whole
    rw [whole]
    rfl
  have unset : configOverrides (codexTail req) = [] := by
    have whole := @overrides_append [] (codexTail req) (codexTail_plain checks)
    rw [List.append_nil] at whole
    exact whole
  rw [auditCodexSessionArgv, codexArgs_eq, audit_append (codexHead_plain checks held), overrides_append (codexHead_plain checks held)]
  cases chosen : req.reasoning with
  | none => exact ⟨audited, unset⟩
  | some reasoning =>
    have parts : commandArgv (option "--config" (some reasoning |>.map effortAssignment)) ++ codexTail req =
        .text "--config" :: .text (effortAssignment reasoning) :: codexTail req := rfl
    rw [parts]
    constructor
    · rw [auditCodexArgs, OsText.toStr]
      dsimp only
      rw [if_neg (by decide), if_pos (.inr rfl), auditCodexArgs, OsText.toStr]
      dsimp only
      rw [if_pos rfl, auditOverride_effort reads]
      exact audited
    · rw [configOverrides, if_pos (.inr rfl), unset]
      rfl

/-- The audit accepts text only. -/
theorem audit_text {args : List OsText} {expectConfigValue : Bool} (passed : auditCodexArgs overrides expectConfigValue args = .ok ()) :
    ∀ arg ∈ args, arg.toStr.isSome = true := by
  induction args generalizing expectConfigValue with
  | nil => exact fun arg member => nomatch member
  | cons arg rest ih =>
    rw [auditCodexArgs] at passed
    cases held : arg.toStr with
    | none =>
      rw [held] at passed
      cases passed
    | some text =>
      rw [held] at passed
      dsimp only at passed
      refine List.forall_mem_cons.mpr ⟨by rw [held]; rfl, ?_⟩
      split at passed
      · obtain ⟨_, _, later⟩ := Fold.bind_ok passed
        exact ih later
      · split at passed
        · exact ih passed
        · obtain ⟨_, _, later⟩ := Fold.bind_ok passed
          exact ih later

/-! ### The whole vector -/

/-- When text of the request is no flag and the audit reads every argument. -/
structure Sound (req : SpawnAgentRequest) (project : CanonicalPath) : Prop where
  systemPrompt : ∀ text ∈ req.systemPrompt, beginsWithDash text = false
  appendSystemPrompt : ∀ text ∈ req.appendSystemPrompt, beginsWithDash text = false
  project : req.agentType = .codex → project.path.toStr.isSome = true

theorem claude_safe (checks : Validated req) (claude : req.agentType = .claudeCode) :
    ArgvSafe overrides req (claudeArgs req sessionId) ↔ Sound req project := by
  constructor
  · intro safe
    refine ⟨fun text held => safe.dashless (.text text) ?_, fun text held => safe.dashless (.text text) ?_, fun codex => ?_⟩
    · simp only [claudeArgs, List.mem_append, mem_option, OsText.text.injEq, exists_eq_right', held, or_true, true_or]
    · simp only [claudeArgs, List.mem_append, mem_option, OsText.text.injEq, exists_eq_right', held, or_true, true_or]
    · cases claude.symm.trans codex
  · intro sound
    refine ⟨fun given member => ?_, ?_, fun _ _ split => claude_allowed checks split,
      fun _ _ split => claude_disallowed checks split, fun codex => nomatch claude.symm.trans codex⟩
    · rcases given_claudeArgs checks member with dashless | ⟨text, rfl, first | second⟩
      · exact dashless
      · exact sound.systemPrompt text first
      · exact sound.appendSystemPrompt text second
    · rw [claudeArgs, List.getLast?_append]
      rfl

theorem codex_safe (checks : Validated req) (reads : ReadsEffort overrides) (codex : req.agentType = .codex) :
    ArgvSafe overrides req (codexArgs req project) ↔ Sound req project := by
  obtain ⟨noSystem, noAppend, _, _⟩ := checks.codex codex
  constructor
  · intro safe
    refine ⟨fun text held => ?_, fun text held => ?_, fun _ => ?_⟩
    · rw [noSystem] at held
      cases held
    · rw [noAppend] at held
      cases held
    · refine audit_text (safe.audited codex).1 project.path (List.mem_map.mpr ⟨.given project.path, ?_, rfl⟩)
      simp [codexArgs]
  · intro sound
    obtain ⟨value, held⟩ : ∃ value, project.path = .text value := by
      have readable := sound.project codex
      cases held : project.path with
      | text value => exact ⟨value, rfl⟩
      | raw value =>
        rw [held] at readable
        cases readable
    refine ⟨fun given member => given_codexArgs checks member, ?_, fun front back split => ?_, fun front back split => ?_,
      fun _ => codex_audited checks reads held⟩
    · rw [codexArgs, List.getLast?_append]
      rfl
    · exact absurd (by rw [split]; simp) (@codex_unlisted req project "--tools" (by decide))
    · exact absurd (by rw [split]; simp) (@codex_unlisted req project "--disallowedTools" (by decide))

/-- The vector of an accepted request is safe exactly if no system prompt begins with a dash and
the project of a Codex spawn is text. -/
theorem argv_safe_iff (host : SpawnHost) (overrides : OverrideHost) (reads : ReadsEffort overrides) (req : SpawnAgentRequest)
    (project : CanonicalPath) (accepted : validateSpawnRequest host req = .ok project) (sessionId : Uuid) (args : List Argument)
    (built : buildAgentCommand req project sessionId = .ok args) : ArgvSafe overrides req args ↔ Sound req project := by
  have checks := validated accepted
  rw [buildAgentCommand] at built
  split at built
  next claude =>
    cases built
    exact claude_safe checks claude
  next codex =>
    cases built
    exact codex_safe checks reads codex
  next => cases built
  next => cases built

private def workHost : SpawnHost where
  canonicalize _ := some ⟨.text "/work", by decide⟩
  metadata _ := some ⟨true, 501⟩
  sshDir := some (.text "/home/.ssh")
  daemonUid := 501
  display _ := "/work"

private def effortReader : OverrideHost where
  parse text := if text = "model_reasoning_effort = true" then .ok [("model_reasoning_effort", .boolean true)] else .error ""
  debug := id

private def codexTask : SpawnAgentRequest where
  agentType := .codex
  project := ⟨"/work/../work"⟩
  prompt := "go"
  model := some "gpt"
  reasoning := some "low"

private def claudeTask (systemPrompt : String) : SpawnAgentRequest where
  agentType := .claudeCode
  project := ⟨"/work"⟩
  prompt := "go"
  systemPrompt := some systemPrompt
  allowedTools := some ["Read", "Grep"]

private def work : CanonicalPath := ⟨.text "/work", by decide⟩

theorem argv_safe_codex : ArgvSafe effortReader codexTask (codexArgs codexTask work) ∧
    ArgvSafe effortReader (claudeTask "Be brief.") (claudeArgs (claudeTask "Be brief.") 0) := by
  constructor
  · refine (argv_safe_iff workHost effortReader rfl codexTask work (by decide +kernel) 0 _ rfl).mpr ⟨?_, ?_, fun _ => rfl⟩
    · exact fun text held => nomatch held
    · exact fun text held => nomatch held
  · refine (argv_safe_iff workHost effortReader rfl (claudeTask "Be brief.") work (by decide +kernel) 0 _ rfl).mpr ⟨?_, ?_, ?_⟩
    · rintro _ ⟨⟩
      decide
    · exact fun text held => nomatch held
    · exact fun codex => nomatch codex

/-- A system prompt is passed on as it is, also where it reads as a flag. -/
theorem system_prompt_dashed : ¬ ∀ (host : SpawnHost) (overrides : OverrideHost), ReadsEffort overrides →
    ∀ (req : SpawnAgentRequest) (project : CanonicalPath), validateSpawnRequest host req = .ok project →
    ∀ (sessionId : Uuid) (args : List Argument), buildAgentCommand req project sessionId = .ok args → ArgvSafe overrides req args := by
  intro always
  have safe := always workHost effortReader rfl (claudeTask "--mcp-config=x") work (by decide +kernel) 0 _ rfl
  have dashless := safe.dashless (.text "--mcp-config=x") (by decide +kernel)
  revert dashless
  decide

end Wisphive.SpawnArgv
