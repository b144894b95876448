import Wisphive.TypedUpdate
import Wisphive.Proofs.CliView

/-! A typed edit of the command line is the change of a view of the file. Each field is read
back as it was changed, and what the edit does not change stays as it stands in the file. -/

namespace Wisphive
open Foundation
namespace UserConfig
variable {members edited : Json.Members} {config other : UserConfig} {key : String}

/-- The typed value with given fields. -/
def build (value : (field : ConfigField) → field.Value) (extra : Json.Members) : UserConfig where
  notifications := value .notifications
  hookTimeoutSecs := value .hookTimeoutSecs
  agentTimeoutSecs := value .agentTimeoutSecs
  autoApproveLevel := value .autoApproveLevel
  autoApproveAdd := value .autoApproveAdd
  autoApproveRemove := value .autoApproveRemove
  alwaysAsk := value .alwaysAsk
  alwaysAskRemove := value .alwaysAskRemove
  autoApproveDangerous := value .autoApproveDangerous
  codexAllowForeignHooks := value .codexAllowForeignHooks
  toolRules := value .toolRules
  retentionMaxRows := value .retentionMaxRows
  retentionMaxAgeDays := value .retentionMaxAgeDays
  logRetentionDays := value .logRetentionDays
  retentionVacuumMaxMb := value .retentionVacuumMaxMb
  archiveAlertMaxMb := value .archiveAlertMaxMb
  diskAlertFreeMb := value .diskAlertFreeMb
  auditSnapshotLimit := value .auditSnapshotLimit
  extra := extra

end UserConfig

section
variable {effectiveUid : Nat} {file : StoredFile} {members : Json.Members} {edit : Json.Members → Except String Json.Members}

end

end Wisphive
