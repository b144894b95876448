import Mathlib.Data.List.TakeWhile
import Wisphive.EventIngest
import Wisphive.Foundation.JsonExtent
import Wisphive.HistorySearch

/-! Agent labels in the column `agent_type`: written as JSON by the queue, and between bare quotes
by the ingestion. -/

namespace Wisphive
open Foundation

namespace AgentLabels
variable {text chars rest : List Char} {label : String}

/-- The text is a literal up to its closing quote and what follows: the characters are its own
where it has no backslash, and fewer where it has one. -/
def Literal (text chars rest : List Char) : Prop :=
  ∃ body, text = body ++ '"' :: rest ∧ chars.length ≤ body.length ∧ ('\\' ∉ body → chars = body) ∧
    ('\\' ∈ body → chars.length < body.length)

theorem Literal.plain {char : Char} (literal : Literal text chars rest) (unescaped : char ≠ '\\') :
    Literal (char :: text) (char :: chars) rest := by
  obtain ⟨body, rfl, bound, same, fewer⟩ := literal
  refine ⟨char :: body, rfl, Nat.succ_le_succ bound, fun absent => ?_, fun member => ?_⟩
  · rw [same fun inside => absent (List.mem_cons_of_mem _ inside)]
  · exact Nat.succ_lt_succ (fewer ((List.mem_cons.mp member).resolve_left unescaped.symm))

/-- A sequence of two or more characters for one. -/
theorem Literal.escaped {char : Char} {sequence : List Char} (literal : Literal text chars rest)
    (long : 2 ≤ sequence.length) (begins : '\\' ∈ sequence) : Literal (sequence ++ text) (char :: chars) rest := by
  obtain ⟨body, rfl, bound, _, _⟩ := literal
  refine ⟨sequence ++ body, (List.append_assoc ..).symm, ?_, ?_, ?_⟩
  · rw [List.length_append, List.length_cons]
    omega
  · exact fun absent => absurd (List.mem_append_left _ begins) absent
  · intro _
    rw [List.length_append, List.length_cons]
    omega

theorem read_behind {char : Char} (read : (Json.readChars text).map (Json.inFront char) = some (chars, rest)) :
    ∃ more, Json.readChars text = some (more, rest) ∧ chars = char :: more := by
  obtain ⟨⟨more, left⟩, found, same⟩ := Option.map_eq_some_iff.mp read
  cases same
  exact ⟨more, found, rfl⟩

theorem readChars_literal (read : Json.readChars text = some (chars, rest)) : Literal text chars rest := by
  fun_induction Json.readChars text generalizing chars with
  | case2 =>
    cases read
    exact ⟨[], rfl, Nat.le_refl _, fun _ => rfl, fun member => by cases member⟩
  | case5 a b c d _ _ _ e f g h _ _ _ _ _ ih =>
    obtain ⟨more, found, rfl⟩ := read_behind read
    show Literal (['\\', 'u', a, b, c, d, '\\', 'u', e, f, g, h] ++ _) _ _
    exact (ih found).escaped (Nat.le_add_left 2 10) List.mem_cons_self
  | case9 a b c d _ _ _ _ _ _ ih =>
    obtain ⟨more, found, rfl⟩ := read_behind read
    show Literal (['\\', 'u', a, b, c, d] ++ _) _ _
    exact (ih found).escaped (Nat.le_add_left 2 4) List.mem_cons_self
  | case11 kind _ _ _ _ _ ih =>
    obtain ⟨more, found, rfl⟩ := read_behind read
    show Literal (['\\', kind] ++ _) _ _
    exact (ih found).escaped (Nat.le_refl _) List.mem_cons_self
  | case14 _ _ _ unescaped _ ih =>
    obtain ⟨more, found, rfl⟩ := read_behind read
    exact (ih found).plain unescaped
  | case1 | case3 | case4 | case6 | case7 | case8 | case10 | case12 | case13 => cases read

/-! ### The column -/

/-- The label between bare quotes. -/
def quoted (label : String) : String :=
  "\"" ++ label ++ "\""

variable {float : String → Option String}

theorem quoted_toList (label : String) : (quoted label).toList = '"' :: (label.toList ++ ['"']) := by
  simp only [quoted, String.toList_append]
  rfl

theorem stripQuotes_quoted (label : String) : stripQuotes (quoted label) = label := by
  rw [stripQuotes, quoted_toList]
  simp only [List.getLast?_concat, if_true, List.dropLast_concat, String.ofList_toList]

theorem readValue_literal (fuel depth : Nat) (text : List Char) :
    Json.readValue float (fuel + 1) depth ('"' :: text) =
      (Json.readChars text).map fun (chars, rest) => (.string (String.ofList chars), rest) := by
  simp only [Json.readValue, Json.skipSpace_mark '"' _ rfl]

/-- A label between quotes that is read at all is read as a literal. -/
theorem parse_quoted {value : Json} (read : Json.parse float (quoted label) = some value) :
    ∃ chars, Json.readChars (label.toList ++ ['"']) = some (chars, []) ∧ value = .string (String.ofList chars) := by
  rw [Json.parse, quoted_toList, readValue_literal] at read
  cases found : Json.readChars (label.toList ++ ['"']) with
  | none =>
    rw [found] at read
    cases read
  | some result =>
    obtain ⟨chars, rest⟩ := result
    rw [found, Option.map_some] at read
    simp only at read
    split at read
    · next blank =>
      cases read
      obtain ⟨body, whole, _⟩ := readChars_literal found
      rcases List.eq_nil_or_concat rest with rfl | ⟨before, last, rfl⟩
      · exact ⟨chars, rfl, rfl⟩
      -- what follows the literal ends with the closing quote, so it is not blank
      · rw [List.concat_eq_append, ← List.cons_append, ← List.append_assoc] at whole
        obtain ⟨_, same⟩ := List.append_inj' whole rfl
        cases same
        rw [Json.skipSpace, List.dropWhile_eq_nil_iff] at blank
        have quote := blank '"' (by rw [List.concat_eq_append]; exact List.mem_append_right _ List.mem_cons_self)
        cases quote
    · cases read

/-- The label is read back exactly where it has no backslash or is no body of a literal. -/
theorem label_of_quoted :
    (((Json.parse float (quoted label)).bind (·.asString?)).getD (stripQuotes (quoted label))) = label ↔
      '\\' ∉ label.toList ∨ Json.parse float (quoted label) = none := by
  cases read : Json.parse float (quoted label) with
  | none => exact iff_of_true (stripQuotes_quoted label) (.inr rfl)
  | some value =>
    obtain ⟨chars, found, rfl⟩ := parse_quoted read
    obtain ⟨body, whole, _, same, fewer⟩ := readChars_literal found
    obtain ⟨rfl, _⟩ := List.append_inj' whole rfl
    have shown : ((some (Json.string (String.ofList chars))).bind (·.asString?)).getD (stripQuotes (quoted label)) =
        String.ofList chars := rfl
    rw [shown, or_iff_left (Option.some_ne_none _)]
    constructor
    · intro equal escaped
      have short := fewer escaped
      rw [← equal, String.toList_ofList] at short
      exact Nat.lt_irrefl _ short
    · intro plain
      rw [same plain, String.ofList_toList]

theorem display_find (agent : AgentType) :
    [AgentType.codex, .claudeCode, .red, .localLlm].find? (·.display = agent.display) = some agent := by
  cases agent <;> decide

theorem find_display {raw : String} {agent : AgentType}
    (found : [AgentType.codex, .claudeCode, .red, .localLlm].find? (·.display = raw) = some agent) :
    agent.display = raw := by
  have holds := List.find?_some found
  exact of_decide_eq_true holds

/-- Labels keep apart what their texts keep apart. -/
theorem fromRaw_inj {raw other : String} : AgentTypeLabel.fromRaw raw = .fromRaw other ↔ raw = other := by
  refine ⟨fun same => ?_, congrArg _⟩
  unfold AgentTypeLabel.fromRaw at same
  cases first : [AgentType.codex, .claudeCode, .red, .localLlm].find? (·.display = raw) with
  | none =>
    cases second : [AgentType.codex, .claudeCode, .red, .localLlm].find? (·.display = other) with
    | none =>
      rw [first, second] at same
      exact AgentTypeLabel.other.inj same
    | some agent =>
      rw [first, second] at same
      cases same
  | some agent =>
    cases second : [AgentType.codex, .claudeCode, .red, .localLlm].find? (·.display = other) with
    | none =>
      rw [first, second] at same
      cases same
    | some agent' =>
      rw [first, second] at same
      cases same
      exact (find_display first).symm.trans (find_display second)

/-! ### The writers -/

theorem label_of_row (platform : SearchPlatform) {row : LogRow} (column : row.agentType = quoted label) :
    row.agentTypeLabel platform = .fromRaw label ↔
      '\\' ∉ label.toList ∨ Json.parse platform.float (quoted label) = none := by
  rw [LogRow.agentTypeLabel, column, fromRaw_inj]
  exact label_of_quoted

/-- The names of the agent types are not escaped. -/
theorem column_quoted (agent : AgentType) : agent.column = quoted agent.display := by
  cases agent <;> decide

theorem display_plain (agent : AgentType) : '\\' ∉ agent.display.toList := by
  cases agent <;> decide

theorem label_of_column (platform : SearchPlatform) {row : LogRow} {agent : AgentType} (column : row.agentType = agent.column) :
    row.agentTypeLabel platform = .known agent := by
  have label := (label_of_row platform (column.trans (column_quoted agent))).mpr (.inl (display_plain agent))
  rw [label, AgentTypeLabel.fromRaw, display_find]

/-- The queue's requests are read back with their agent types, however their rows come to the
log. An ingested label is read back exactly where it has no backslash, or where between quotes
it is no JSON. -/
theorem agent_label_kept_iff (ingest : IngestPlatform) (search : SearchPlatform) :
    (∀ req decision decidedBy now,
        ((PendingRow.ofRequest req).resolved decision decidedBy now).agentTypeLabel search = .known req.agentType) ∧
      (∀ fallback decidedBy now,
        (Database.fallbackRow fallback decidedBy now).agentTypeLabel search = .known fallback.agentType) ∧
      ∀ event entry kind label, EventIngest.decisionEntry event = some (entry, kind) →
        EventIngest.field event "agent_type" = some label →
          ((entry.row ingest).agentTypeLabel search = .fromRaw label ↔
            '\\' ∉ label.toList ∨ Json.parse search.float (quoted label) = none) := by
  refine ⟨fun req decision decidedBy now => label_of_column search rfl,
    fun fallback decidedBy now => label_of_column search rfl, ?_⟩
  intro event entry kind label written named
  refine label_of_row search ?_
  obtain ⟨_, _, same⟩ := Option.map_eq_some_iff.mp written
  obtain ⟨rfl, _⟩ := Prod.mk.inj same
  show "\"" ++ (EventIngest.field event "agent_type").getD "claude_code" ++ "\"" = quoted label
  rw [named]
  rfl

/-! ### A label with an escape -/

/-- A refusal of an unknown provider whose name has a backslash. -/
def refusal : Json :=
  .object [("event", .string "denied"), ("agent_type", .string "unrecognized:a\\tb")]

def plainIngest : IngestPlatform where
  fromStr := Json.parse fun _ => none
  finish := fun _ => 0
  parseFromRfc3339 := fun _ => none
  parseUuid := fun _ => none

def plainSearch : SearchPlatform where
  float := fun _ => none
  parseFromRfc3339 := fun _ => none
  isAlphanumeric := Char.isAlphanum
  fold := Char.toLower
  matchesColumn := fun _ _ => false

/-- The backslash and the letter behind it are read back as a tab. -/
theorem escaped_label_changed :
    ∃ entry kind, EventIngest.decisionEntry refusal = some (entry, kind) ∧
      (entry.row plainIngest).agentTypeLabel plainSearch = .other "unrecognized:a\tb" ∧
        AgentTypeLabel.fromRaw "unrecognized:a\\tb" = .other "unrecognized:a\\tb" := by
  refine ⟨_, _, rfl, by decide +kernel, by decide +kernel⟩

end AgentLabels
end Wisphive
