import Wisphive.HookPolicy
import Mathlib.Data.Finset.Sort
import Mathlib.Data.String.Basic

/-! The daemon's watch over the configuration: the policy-relevant part of a file and
the widenings between two of them. -/

namespace Wisphive
open Foundation

/-- What a trusted read of a policy file finds. The text may be no JSON. -/
inductive ConfigFile where
  | missing
  | untrusted (reason : String)
  | contents (value : Option Json)
  deriving DecidableEq, Repr

namespace ConfigFile

def trusted : ConfigFile → Bool
  | .untrusted _ => false
  | _ => true

/-- The hook's reading. Any trust or parse failure is as good as no file. -/
def trustedConfigJson : ConfigFile → Option Json
  | .contents value => value
  | _ => none

end ConfigFile

/-- Parsed, policy-relevant portion of the configuration. -/
structure PolicySnapshot where
  levelRank : Nat := AutoApproveLevel.read.rank
  autoApproveAdd : Finset String := ∅
  autoApproveRemove : Finset String := ∅
  alwaysAsk : Finset String := ∅
  alwaysAskRemove : Finset String := ∅
  dangerous : Bool := false
  allowSelfModification : Bool := false
  codexAllowForeignHooks : Bool := false
  autoApproveStop : Bool := false
  autoApproveUserPrompt : Bool := true
  autoApproveConfigChange : Bool := true
  autoApproveLifecycle : Bool := true
  allowPatterns : List (String × Finset String) := []
  trusted : Bool := true
  untrustedReason : Option String := none
  deriving DecidableEq

namespace PolicySnapshot

def levelName : Nat → String
  | 0 => "off"
  | 1 => "read"
  | 2 => "write"
  | 3 => "execute"
  | 4 => "all"
  | _ => "unknown"

def stringSet (value : Json) (key : String) : Finset String :=
  ((((value.get? key).bind Json.asArray?).getD []).filterMap Json.asString?).toFinset

def boolAt (value : Json) (key : String) (default : Bool) : Bool :=
  ((value.get? key).bind Json.asBool?).getD default

/-- The tools with allow patterns in the order of their names. -/
def allowPatternsOf (value : Json) : List (String × Finset String) :=
  match (value.get? "tool_rules").bind Json.asObject? with
  | none => []
  | some rules =>
    ((rules.map Prod.fst).toFinset.sort (· ≤ ·)).filterMap fun tool =>
      match rules.lookup tool with
      | none => none
      | some rule =>
        let patterns := stringSet rule "allow_patterns"
        if patterns = ∅ then none else some (tool, patterns)

def fromValue (platform : HookPlatform) (value : Json) : PolicySnapshot where
  levelRank := ((HookPolicy.level platform value).map AutoApproveLevel.rank).getD AutoApproveLevel.read.rank
  autoApproveAdd := stringSet value "auto_approve_add"
  autoApproveRemove := stringSet value "auto_approve_remove"
  alwaysAsk := stringSet value "always_ask"
  alwaysAskRemove := stringSet value "always_ask_remove"
  dangerous := boolAt value "auto_approve_dangerous" false
  allowSelfModification := boolAt value "allow_self_modification" false
  codexAllowForeignHooks := boolAt value "codex_allow_foreign_hooks" false
  autoApproveStop := boolAt value "auto_approve_stop" false
  autoApproveUserPrompt := boolAt value "auto_approve_user_prompt" true
  autoApproveConfigChange := boolAt value "auto_approve_config_change" true
  autoApproveLifecycle := boolAt value "auto_approve_lifecycle" true
  allowPatterns := allowPatternsOf value

/-- A missing configuration is the trusted default. A text that is no JSON counts as null. -/
def read (platform : HookPlatform) : ConfigFile → PolicySnapshot
  | .contents value => fromValue platform (value.getD .null)
  | .missing => {}
  | .untrusted reason => { trusted := false, untrustedReason := some reason }

/-- The flags in the order in which they are compared. -/
def flags (snapshot : PolicySnapshot) : List (String × Bool) :=
  [("auto_approve_dangerous", snapshot.dangerous),
    ("allow_self_modification", snapshot.allowSelfModification),
    ("codex_allow_foreign_hooks", snapshot.codexAllowForeignHooks),
    ("auto_approve_stop", snapshot.autoApproveStop),
    ("auto_approve_user_prompt", snapshot.autoApproveUserPrompt),
    ("auto_approve_config_change", snapshot.autoApproveConfigChange),
    ("auto_approve_lifecycle", snapshot.autoApproveLifecycle)]

end PolicySnapshot

open PolicySnapshot in
/-- Compare two snapshots and return human-readable policy widenings. -/
def widenings (old new : PolicySnapshot) : List String :=
  let levels :=
    if old.levelRank < new.levelRank then
      ["auto_approve_level increased from " ++ levelName old.levelRank ++ " to " ++ levelName new.levelRank]
    else []
  let added := ((new.autoApproveAdd \ old.autoApproveAdd).sort (· ≤ ·)).map ("auto_approve_add added " ++ ·)
  let removed :=
    ((old.autoApproveRemove \ new.autoApproveRemove).sort (· ≤ ·)).map ("auto_approve_remove removed " ++ ·)
  let released := ((new.alwaysAskRemove \ old.alwaysAskRemove).sort (· ≤ ·)).map ("always_ask_remove added " ++ ·)
  let unasked := ((old.alwaysAsk \ new.alwaysAsk).sort (· ≤ ·)).map ("always_ask removed " ++ ·)
  let enabled := (old.flags.zip new.flags).filterMap fun (before, after) =>
    if !before.2 && after.2 then some (before.1 ++ " enabled") else none
  let patterns := new.allowPatterns.flatMap fun (tool, patterns) =>
    ((patterns \ (old.allowPatterns.lookup tool).getD ∅).sort (· ≤ ·)).map fun pattern =>
      "tool_rules." ++ tool ++ ".allow_patterns added " ++ pattern
  levels ++ added ++ removed ++ released ++ unasked ++ enabled ++ patterns

end Wisphive
