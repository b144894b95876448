import Mathlib.Data.List.DropRight
import Wisphive.EventIngest

/-! The messages of the daemon as the web page has them. Times are texts, which `Date` reads. -/

namespace Wisphive
open Foundation

namespace Page

structure SessionSummary where
  agentId : String
  agentType : String
  project : String
  lastSeen : String
  isLive : Bool := false
  pendingCount : Nat := 0
  deriving DecidableEq, Repr

structure AgentInfo where
  agentId : String
  agentType : AgentType
  project : String
  lastSeen : String
  deriving DecidableEq, Repr

structure AuditDecision where
  kind : AuditDecisionKind
  project : String
  agentId : String
  terminalSessionId : Option String := none
  toolName : String
  ts : String
  resolved : Option Bool := none
  deriving DecidableEq, Repr

structure DecisionRequest where
  id : String
  agentId : String
  agentType : AgentType
  project : String
  toolName : String
  timestamp : String
  deriving DecidableEq, Repr

/-- An approved call of a tool that may leave something behind. -/
structure ArtifactTouch where
  agentId : String
  project : String
  toolName : String
  toolInput : Option Json := none
  ts : String
  deriving DecidableEq, Repr

/-- Labels outside of the closed set have no type. -/
def knownAgentType (label : String) : Option AgentType :=
  [AgentType.codex, .claudeCode, .red, .localLlm].find? (·.display = label)

/-- The prefixes of the ids that the hooks give. -/
def agentTypeFromId (agentId : String) : AgentType :=
  if "codex-".toList.isPrefixOf agentId.toList then .codex
  else if "red-".toList.isPrefixOf agentId.toList then .red
  else if "local-".toList.isPrefixOf agentId.toList then .localLlm
  else .claudeCode

/-- White space and line terminators, as `\s` and `trim` have them. -/
def isSpace (char : Char) : Bool :=
  9 ≤ char.toNat && char.toNat ≤ 13 ||
    char.toNat ∈ [0x20, 0xa0, 0x1680, 0x2028, 0x2029, 0x202f, 0x205f, 0x3000, 0xfeff] ||
    0x2000 ≤ char.toNat && char.toNat ≤ 0x200a

def trim (text : List Char) : List Char :=
  (text.dropWhile isSpace).rdropWhile isSpace

end Page
end Wisphive
