import Wisphive.ConfigUpdates
import Wisphive.Foundation.FieldLens

/-! The typed configuration as a view of the file, field by field, and the update of the file by
a change of the typed value. -/

namespace Wisphive
open Foundation

/-- The members that an update starts from. A missing file has none. -/
def StoredFile.document (file : StoredFile) : Option Json.Members :=
  match file.parsed.read with
  | .contents (some (.object members)) => some members
  | .notFound => some []
  | _ => none

/-- The fields that are read by type. -/
inductive ConfigField where
  | notifications | hookTimeoutSecs | agentTimeoutSecs | autoApproveLevel | autoApproveAdd | autoApproveRemove | alwaysAsk
  | alwaysAskRemove | autoApproveDangerous | codexAllowForeignHooks | toolRules | retentionMaxRows | retentionMaxAgeDays
  | logRetentionDays | retentionVacuumMaxMb | archiveAlertMaxMb | diskAlertFreeMb | auditSnapshotLimit
  deriving DecidableEq, Repr

namespace ConfigField

def key : ConfigField → String
  | notifications => "notifications"
  | hookTimeoutSecs => "hook_timeout_secs"
  | agentTimeoutSecs => "agent_timeout_secs"
  | autoApproveLevel => "auto_approve_level"
  | autoApproveAdd => "auto_approve_add"
  | autoApproveRemove => "auto_approve_remove"
  | alwaysAsk => "always_ask"
  | alwaysAskRemove => "always_ask_remove"
  | autoApproveDangerous => "auto_approve_dangerous"
  | codexAllowForeignHooks => "codex_allow_foreign_hooks"
  | toolRules => "tool_rules"
  | retentionMaxRows => "retention_max_rows"
  | retentionMaxAgeDays => "retention_max_age_days"
  | logRetentionDays => "log_retention_days"
  | retentionVacuumMaxMb => "retention_vacuum_max_mb"
  | archiveAlertMaxMb => "archive_alert_max_mb"
  | diskAlertFreeMb => "disk_alert_free_mb"
  | auditSnapshotLimit => "audit_snapshot_limit"

abbrev Value : ConfigField → Type
  | notifications | autoApproveDangerous | codexAllowForeignHooks => Bool
  | autoApproveLevel => Option AutoApproveLevel
  | autoApproveAdd | autoApproveRemove | alwaysAsk | alwaysAskRemove => Option (List String)
  | toolRules => Option (List (String × ToolRule))
  | _ => Option Nat

end ConfigField

/-! ### The fields as lenses -/

namespace ConfigLens

def flag (default : Bool) (write : Bool → Option Json)
    (read_write : ∀ value, fieldOr default Json.asBool? (write value) = some value) : FieldLens Json Bool where
  get := fieldOr default Json.asBool?
  put := write
  Valid _ := True
  valid_of_get _ := trivial
  get_put _ := read_write _

/-- An optional field is left out where it is absent. -/
def optional {Value : Type} (parse : Json → Option Value) (encode : Value → Json) (Fits : Value → Prop)
    (fits : ∀ {raw value}, parse raw = some value → Fits value) (plain : ∀ value, encode value ≠ .null)
    (parse_encode : ∀ {value}, Fits value → parse (encode value) = some value) : FieldLens Json (Option Value) where
  get := fieldOr none (Wisphive.optional parse)
  put value := value.map encode
  Valid value := ∀ present ∈ value, Fits present
  valid_of_get := by
    rintro (_ | raw) value read present rfl
    · cases read
    · by_cases empty : raw = .null
      · subst empty
        cases read
      · have parsed : (parse raw).map some = some (some present) := by
          cases raw <;> first | exact absurd rfl empty | exact read
        obtain ⟨held, found, same⟩ := Option.map_eq_some_iff.mp parsed
        cases same
        exact fits found
  get_put := by
    rintro (_ | value) valid
    · rfl
    · have parsed := parse_encode (valid value rfl)
      have proper := plain value
      rw [Option.map_some, fieldOr]
      revert parsed proper
      generalize encode value = raw
      intro parsed proper
      cases raw <;> first | exact absurd rfl proper | exact congrArg (Option.map some) parsed

theorem unsigned_eq {bits count : Nat} {raw : Json} (read : unsigned bits raw = some count) : count < 2 ^ bits := by
  unfold unsigned at read
  split at read
  next value =>
    split at read
    next bounds =>
      cases read
      exact (Int.toNat_lt bounds.1).mpr (by exact_mod_cast bounds.2)
    next => cases read
  next => cases read

theorem unsigned_natCast {bits value : Nat} (bound : value < 2 ^ bits) :
    unsigned bits (.number (.integer value)) = some value := by
  have fits : (0 : Int) ≤ value ∧ (value : Int) < 2 ^ bits := ⟨by omega, by exact_mod_cast bound⟩
  rw [unsigned, if_pos fits, Int.toNat_natCast]

def number (bits : Nat) : FieldLens Json (Option Nat) :=
  optional (unsigned bits) (fun value => .number (.integer value)) (· < 2 ^ bits) unsigned_eq (by simp) unsigned_natCast

theorem textsOf_strings (names : List String) : textsOf (.array (names.map .string)) = some names := by
  rw [textsOf]
  induction names with
  | nil => rfl
  | cons name rest ih => rw [List.map_cons, List.mapM_cons, ih]; rfl

def tools : FieldLens Json (Option (List String)) :=
  optional textsOf (fun names => .array (names.map .string)) (fun _ => True) (fun _ => trivial) (by simp)
    (fun _ => textsOf_strings _)

def level : FieldLens Json (Option AutoApproveLevel) :=
  optional AutoApproveLevel.fromValue (fun level => .string level.display) (fun _ => True) (fun _ => trivial) (by simp)
    (fun {value} _ => by cases value <;> decide +kernel)

theorem toolRule_toValue (rule : ToolRule) : ToolRule.fromValue rule.toValue = some rule := by
  obtain ⟨deny, allow⟩ := rule
  have first : fieldOr [] textsOf ((ToolRule.texts "deny_patterns" deny ++ ToolRule.texts "allow_patterns" allow).lookup "deny_patterns") =
      some deny := by
    rw [ToolRule.texts, ToolRule.texts]
    split
    next none =>
      split
      next => rw [none]; rfl
      next => rw [none]; rfl
    next => exact textsOf_strings deny
  have second : fieldOr [] textsOf ((ToolRule.texts "deny_patterns" deny ++ ToolRule.texts "allow_patterns" allow).lookup "allow_patterns") =
      some allow := by
    rw [ToolRule.texts, ToolRule.texts]
    split
    next =>
      split
      next none => rw [none]; rfl
      next => exact textsOf_strings allow
    next =>
      split
      next none => rw [none]; rfl
      next => exact textsOf_strings allow
  rw [ToolRule.toValue, ToolRule.fromValue, first, second]
  rfl

def rules : FieldLens Json (Option (List (String × ToolRule))) :=
  optional toolRulesOf (fun rules => .object (rules.map fun (tool, rule) => (tool, rule.toValue))) (fun _ => True)
    (fun _ => trivial) (by simp)
    (by
      intro rules _
      rw [toolRulesOf]
      induction rules with
      | nil => rfl
      | cons first rest ih =>
        obtain ⟨tool, rule⟩ := first
        rw [List.map_cons, List.mapM_cons, ih]
        dsimp only
        rw [toolRule_toValue]
        rfl)

end ConfigLens

namespace ConfigField

def lens : (field : ConfigField) → FieldLens Json field.Value
  | notifications => ConfigLens.flag true (fun value => some (.bool value)) fun _ => rfl
  | autoApproveDangerous | codexAllowForeignHooks =>
    ConfigLens.flag false (fun value => if value then some (.bool true) else none) (by decide +kernel)
  | autoApproveLevel => ConfigLens.level
  | autoApproveAdd | autoApproveRemove | alwaysAsk | alwaysAskRemove => ConfigLens.tools
  | toolRules => ConfigLens.rules
  | auditSnapshotLimit => ConfigLens.number 32
  | hookTimeoutSecs | agentTimeoutSecs | retentionMaxRows | retentionMaxAgeDays | logRetentionDays | retentionVacuumMaxMb
  | archiveAlertMaxMb | diskAlertFreeMb => ConfigLens.number 64

end ConfigField

namespace UserConfig

end UserConfig

/-- The numbers of a command are machine integers. -/
def CliMutation.Fits : CliMutation → Prop
  | .setHookTimeoutSecs secs | .setAgentTimeoutSecs secs => secs < 2 ^ 64
  | _ => True

end Wisphive
