import Wisphive.CodexSnapshot
import Wisphive.Proofs.HookSettings

/-! What a snapshot of the audit is worth. The audit reads every file through the snapshot, so in
files on which the snapshot still holds it comes to the same verdict, as long as it expects the
same gate. -/

namespace Wisphive.CodexHost
open Foundation Recording

variable {Digest : Type} {host : CodexHost Digest} {files other : CodexFiles}
  {again : String × Option Digest → Prop}

/-! ### Reading again -/

/-- What is confirmed of a file that was read is what the other files have. -/
structure Confirms (host : CodexHost Digest) (files other : CodexFiles) (again : String × Option Digest → Prop) : Prop where
  present : ∀ path bytes, files.read path = .found bytes → again (path, some (host.sha256 bytes)) →
    other.read path = .found bytes
  missing : ∀ path reason, files.read path = .absent reason → again (path, none) → ∃ reason, other.read path = .absent reason

theorem confirms_same (files : CodexFiles) : Confirms host files files fun _ => True where
  present _ _ found _ := found
  missing _ reason absent _ := ⟨reason, absent⟩

theorem replays_recordRead (confirms : Confirms host files other again) (path : String) :
    Replays again files other (host.recordRead path) := by
  intro log value after done
  rw [recordRead] at done
  split at done
  · next bytes found =>
    split at done
    · next content decoded =>
      cases done
      refine ⟨_, rfl, fun holds start => ?_⟩
      have same := confirms.present path bytes found (holds _ (List.mem_singleton.mpr rfl))
      refine ⟨start ++ [(path, some (host.sha256 bytes))], ?_⟩
      rw [recordRead, same]
      simp only [decoded]
    · cases done
  · next reason absent =>
    cases done
    refine ⟨_, rfl, fun holds start => ?_⟩
    obtain ⟨reason, same⟩ := confirms.missing path reason absent (holds _ (List.mem_singleton.mpr rfl))
    exact ⟨start ++ [(path, none)], by rw [recordRead, same]⟩
  · cases done

theorem replays_orHalt {α : Type} (result : Except String α) :
    Replays again files other (orHalt result : CodexRecording Digest α) :=
  replays_ask rfl

theorem replays_answered {α : Type} {question : CodexFiles → Except String α} (same : question files = question other) :
    Replays again files other (answered question : CodexRecording Digest α) :=
  replays_ask (by rw [same])

theorem replays_orMissing (content : Option String) (message : String) :
    Replays again files other (orMissing content message : CodexRecording Digest String) := by
  cases content with
  | none => exact replays_fail _
  | some text => exact replays_pure text

/-! ### The plugins, walked again -/

/-- What was logged before makes no difference to the inventory. -/
theorem replays_collectPlugin (codexHome : String) (inventory : PluginHookInventory) (plugin : EnabledCodexPlugin) :
    Replays (fun _ => True) files files (host.collectPlugin codexHome inventory plugin) := by
  refine replays_bind (replays_answered rfl) fun root => ?_
  cases root with
  | none => exact replays_pure inventory
  | some root =>
    refine replays_bind (replays_answered rfl) fun canonicalRoot => replays_bind (replays_answered rfl) fun manifest => ?_
    cases manifest with
    | none => exact replays_pure inventory
    | some manifest =>
      refine replays_bind ?_ fun content => replays_bind (replays_orHalt _) fun members => replays_answered rfl
      refine replays_bind (replays_recordRead (confirms_same files) manifest) fun content => ?_
      cases content with
      | none => exact replays_fail _
      | some text => exact replays_pure text

theorem replays_collectPluginHooks (codexHome : String) (enabled : List EnabledCodexPlugin) :
    Replays (fun _ => True) files files (host.collectPluginHooks codexHome enabled) :=
  replays_bind (replays_foldlM (fun inventory plugin _ => replays_collectPlugin codexHome inventory plugin) _)
    fun _ => replays_pure _

/-! ### The hook files and the layers -/

variable (confirms : Confirms host files other again) (steady : host.inspection files = host.inspection other)
include steady

theorem inspectHookContent_steady (path content : String) :
    host.inspectHookContent path content files = host.inspectHookContent path content other := by
  unfold inspectHookContent inspectHookValue
  rw [steady]

theorem inspectHookValue_steady (path : String) (settings : Json) :
    host.inspectHookValue path settings files = host.inspectHookValue path settings other := by
  unfold inspectHookValue
  rw [steady]

include confirms

theorem replays_projectHooks : Replays again files other host.projectHooks := by
  refine replays_bind (replays_relabel _ ?_) fun verdict => replays_pure _
  refine replays_bind (replays_recordRead confirms _) fun content => replays_bind (replays_orMissing _ _) fun text => ?_
  exact replays_answered (inspectHookContent_steady steady ..)

theorem replays_userHooks (verdict : HookVerdict) : Replays again files other (host.userHooks verdict) := by
  refine replays_bind (replays_recordRead confirms _) fun content => ?_
  cases content with
  | none => exact replays_pure verdict
  | some content =>
    refine replays_bind (replays_relabel _ ?_) fun user => replays_pure _
    exact replays_answered (inspectHookContent_steady steady ..)

theorem replays_pluginFile (verdict : HookVerdict) (path : String) :
    Replays again files other (host.pluginFile verdict path) := by
  refine replays_bind (replays_relabel _ ?_) fun content => replays_bind (replays_relabel _ ?_) fun plugin => replays_pure _
  · exact replays_bind (replays_recordRead confirms path) fun content => replays_orMissing _ _
  · exact replays_answered (inspectHookContent_steady steady ..)

omit confirms in
theorem replays_inlinePlugin (verdict : HookVerdict) (hook : InlinePluginHook) :
    Replays again files other (host.inlinePlugin verdict hook) :=
  replays_bind (replays_relabel _ (replays_answered (inspectHookValue_steady steady ..))) fun _ => replays_pure _

theorem replays_auditPlugins (inventory : PluginHookInventory) (verdict : HookVerdict) :
    Replays again files other (host.auditPlugins inventory verdict) :=
  replays_bind (replays_foldlM (fun verdict path _ => replays_pluginFile confirms steady verdict path) verdict) fun verdict =>
    replays_foldlM (fun verdict hook _ => replays_inlinePlugin steady verdict hook) verdict

omit steady

theorem replays_auditLayer (gateKeys : List String) (state : LayerScan) (path : String) :
    Replays again files other (host.auditLayer gateKeys state path) := by
  refine replays_bind (replays_relabel _ (replays_recordRead confirms path)) fun content => ?_
  cases content with
  | none => exact replays_pure state
  | some content => exact replays_bind (replays_relabel _ (replays_orHalt _)) fun scan => replays_orHalt _

theorem replays_auditLayers (gateKeys : List String) (fuel index : Nat) (state : LayerScan) :
    Replays again files other (host.auditLayers gateKeys fuel index state) := by
  induction fuel generalizing index state with
  | zero =>
    unfold auditLayers
    cases state.layers.configLayers[index]? with
    | none => exact replays_pure state
    | some path => exact replays_fail _
  | succ fuel ih =>
    unfold auditLayers
    cases state.layers.configLayers[index]? with
    | none => exact replays_pure state
    | some path => exact replays_bind (replays_auditLayer confirms gateKeys state path) fun next => ih (index + 1) next

include steady

theorem replays_auditConfiguration (fuel : Nat) : Replays again files other (host.auditConfiguration fuel) := by
  refine replays_bind (replays_projectHooks confirms steady) fun project => ?_
  refine replays_bind (replays_userHooks confirms steady project) fun verdict => ?_
  refine replays_bind (replays_auditLayers confirms _ _ _ _) fun scans => ?_
  exact replays_bind (replays_relabel _ (replays_orHalt _)) fun enabled => replays_pure _

omit confirms steady

/-! ### The verdict -/

/-- No change of a file has the digest of what was there. -/
def CollisionFree (host : CodexHost Digest) (files other : CodexFiles) : Prop :=
  ∀ path bytes contents, files.read path = .found bytes → other.read path = .found contents →
    host.sha256 contents = host.sha256 bytes → contents = bytes

variable [DecidableEq Digest] {fuel : Nat} {verdict : HookVerdict} {snapshot : AuditSnapshot Digest}

/-- The file still is what was logged. -/
def Unchanged (host : CodexHost Digest) (other : CodexFiles) (entry : String × Option Digest) : Prop :=
  host.currentDigest other entry.1 = .ok entry.2

theorem unchanged_of_check {log : AuditLog Digest} (checked : log.forM (host.checkFile other) = .ok ()) :
    ∀ entry ∈ log, Unchanged host other entry := by
  induction log with
  | nil => exact fun _ member => nomatch member
  | cons entry log ih =>
    rw [List.forM_eq_forM, List.forM_cons] at checked
    obtain ⟨_, first, rest⟩ := Fold.bind_ok checked
    obtain ⟨current, found, same⟩ := Fold.bind_ok first
    intro item member
    rcases List.mem_cons.mp member with rfl | later
    · split at same
      · next equal => exact found.trans (congrArg _ equal)
      · cases same
    · exact ih rest item later

omit [DecidableEq Digest] in
theorem unchanged_confirms (free : CollisionFree host files other) : Confirms host files other (Unchanged host other) where
  present path bytes found unchanged := by
    unfold Unchanged currentDigest at unchanged
    split at unchanged
    · next contents here =>
      have same := Option.some.inj (Except.ok.inj unchanged)
      rw [here, free path bytes contents found here same]
    · cases unchanged
    · cases unchanged
  missing path reason found unchanged := by
    unfold Unchanged currentDigest at unchanged
    split at unchanged
    · cases unchanged
    · next reason here => exact ⟨reason, here⟩
    · cases unchanged

omit [DecidableEq Digest] in
theorem expectSame_ok {α : Type} [DecidableEq α] {current audited : α} {message : String} {log after : AuditLog Digest}
    {nothing : Unit} (done : (expectSame current audited message : CodexRecording Digest Unit) other log = .ok (nothing, after)) :
    current = audited := by
  unfold expectSame at done
  split at done
  · assumption
  · cases done

omit [DecidableEq Digest] in
/-- Where the check succeeds, the plugins' inventory is what it was. -/
theorem rewalk_inventory {home : String} {log after : AuditLog Digest} {nothing : Unit}
    (done : host.rewalk snapshot home other log = .ok (nothing, after)) :
    ∃ before later, host.collectPluginHooks home snapshot.enabledPlugins other before = .ok (snapshot.pluginHooks, later) := by
  obtain ⟨scan, _, _, done⟩ := bind_ok done
  obtain ⟨_, _, _, done⟩ := bind_ok done
  obtain ⟨plugins, _, _, done⟩ := bind_ok done
  obtain ⟨_, _, enabled, done⟩ := bind_ok done
  obtain ⟨inventory, later, collected, done⟩ := bind_ok done
  rw [← expectSame_ok enabled, ← expectSame_ok done]
  exact ⟨_, _, collected⟩

theorem verdict_replayed (audited : host.auditCodexEffectiveHooks fuel files = .ok (verdict, snapshot))
    (unchanged : host.verifyUnchanged snapshot (some host.codexHome) other = .ok ()) (free : CollisionFree host files other)
    (steady : host.inspection files = host.inspection other) :
    ∃ current, host.auditCodexEffectiveHooks fuel other = .ok (verdict, current) := by
  obtain ⟨⟨configured, early⟩, configures, audited⟩ := Fold.bind_ok audited
  obtain ⟨⟨inventory, middle⟩, collects, audited⟩ := Fold.bind_ok audited
  obtain ⟨⟨final, late⟩, judges, audited⟩ := Fold.bind_ok audited
  cases audited
  obtain ⟨_, checked, walked⟩ := Fold.bind_ok unchanged
  obtain ⟨⟨_, _⟩, walked, _⟩ := Fold.bind_ok walked
  obtain ⟨before, after, again⟩ := rewalk_inventory walked
  have holds := unchanged_of_check checked
  have confirms := unchanged_confirms free
  obtain ⟨first, rfl, configures_again⟩ := replays_auditConfiguration confirms steady fuel _ _ _ configures
  obtain ⟨second, rfl, _⟩ := replays_collectPluginHooks host.codexHome configured.enabled _ _ _ (relabel_ok.mp collects)
  obtain ⟨third, rfl, judges_again⟩ := replays_auditPlugins confirms steady inventory configured.verdict _ _ _ judges
  obtain ⟨log, configures⟩ := configures_again
    (fun entry member => holds entry (List.mem_append_left _ (List.mem_append_left _ member))) []
  obtain ⟨_, _, collects_again⟩ := replays_collectPluginHooks host.codexHome configured.enabled before _ after again
  obtain ⟨middle, collects⟩ := collects_again (fun _ _ => trivial) log
  obtain ⟨finish, judges⟩ := judges_again (fun entry member => holds entry (List.mem_append_right _ member)) middle
  refine ⟨snapshotOf configured inventory finish, ?_⟩
  rw [auditCodexEffectiveHooks, configures]
  show (relabel _ _ other log >>= _) = _
  rw [relabel_ok.mpr collects]
  show (host.auditPlugins inventory configured.verdict other middle >>= _) = _
  rw [judges]
  rfl

/-! ### The gate -/

omit [DecidableEq Digest]

/-- What a verdict says about the gate. -/
def gateOf (verdict : HookVerdict) : Bool × List (Nat × Nat) :=
  (verdict.hasBlockingPretoolGate, verdict.gateLocations)

/-- The file beside the daemon's executable that decides how the gate's command is spelled. -/
def hookBinaryPresent (host : CodexHost Digest) (files : CodexFiles) : Bool :=
  host.exeDir.any fun directory => files.holds (CodexSetup.join directory "wisphive-hook")

theorem quoted_binary_ne (directory : String) :
    HookSettings.installerShellQuote (CodexSetup.join directory "wisphive-hook") ≠ HookSettings.installerShellQuote "wisphive-hook" := by
  have plain : HookSettings.installerShellQuote "wisphive-hook" = "wisphive-hook" := by decide +kernel
  rw [plain]
  intro same
  unfold HookSettings.installerShellQuote at same
  split at same
  · have size := congrArg String.length same
    simp [CodexSetup.join] at size
  · have first := congrArg (List.head? ∘ String.toList) same
    simp at first

theorem installerHookBinaryPath_eq :
    host.installerHookBinaryPath files =
      if hookBinaryPresent host files then CodexSetup.join (host.exeDir.getD "") "wisphive-hook" else "wisphive-hook" := by
  unfold installerHookBinaryPath hookBinaryPresent
  cases host.exeDir <;> rfl

/-- The same gate is expected where the binary is there on both sides or on none. -/
theorem inspection_steady (same : hookBinaryPresent host files = hookBinaryPresent host other) :
    host.inspection files = host.inspection other := by
  unfold inspection
  rw [installerHookBinaryPath_eq, installerHookBinaryPath_eq, same]

theorem present_of_expected (same : (host.inspection files).expected = (host.inspection other).expected) :
    hookBinaryPresent host files = hookBinaryPresent host other := by
  have quoted : HookSettings.installerShellQuote (host.installerHookBinaryPath files) =
      HookSettings.installerShellQuote (host.installerHookBinaryPath other) := String.append_right_inj _ |>.mp same
  rw [installerHookBinaryPath_eq, installerHookBinaryPath_eq] at quoted
  have apart := quoted_binary_ne (host.exeDir.getD "")
  cases here : hookBinaryPresent host files <;> cases there : hookBinaryPresent host other
  · rfl
  · rw [here, there] at quoted
    exact absurd quoted.symm apart
  · rw [here, there] at quoted
    exact absurd quoted apart
  · rfl

theorem pluginFile_gate {path : String} {verdict next : HookVerdict} {log after : AuditLog Digest}
    (done : host.pluginFile verdict path files log = .ok (next, after)) : gateOf next = gateOf verdict := by
  obtain ⟨_, _, _, done⟩ := bind_ok done
  obtain ⟨_, _, _, done⟩ := bind_ok done
  cases done
  rfl

theorem inlinePlugin_gate {hook : InlinePluginHook} {verdict next : HookVerdict} {log after : AuditLog Digest}
    (done : host.inlinePlugin verdict hook files log = .ok (next, after)) : gateOf next = gateOf verdict := by
  obtain ⟨_, _, _, done⟩ := bind_ok done
  cases done
  rfl

theorem auditPlugins_gate {inventory : PluginHookInventory} {verdict next : HookVerdict} {log after : AuditLog Digest}
    (done : host.auditPlugins inventory verdict files log = .ok (next, after)) : gateOf next = gateOf verdict := by
  obtain ⟨middle, _, first, second⟩ := bind_ok done
  exact (foldlM_keeps (fun _ _ _ _ _ => inlinePlugin_gate) second).trans (foldlM_keeps (fun _ _ _ _ _ => pluginFile_gate) first)

theorem userHooks_gate {verdict next : HookVerdict} {log after : AuditLog Digest}
    (done : host.userHooks verdict files log = .ok (next, after)) : gateOf next = gateOf verdict := by
  obtain ⟨content, _, _, done⟩ := bind_ok done
  cases content with
  | none =>
    cases done
    rfl
  | some content =>
    obtain ⟨_, _, _, done⟩ := bind_ok done
    cases done
    rfl

/-- What a file's bytes stand for. -/
def settingsOf (host : CodexHost Digest) (bytes : List UInt8) : Option Json :=
  (String.fromUTF8? ⟨bytes.toArray⟩).bind fun content => (host.parseJson content).toOption

/-- The project's own file, as the audit read and judged it. -/
structure ProjectJudged (host : CodexHost Digest) (files : CodexFiles) (log : AuditLog Digest) (bytes : List UInt8)
    (settings : Json) (verdict : HookVerdict) : Prop where
  read : files.read (HookSettingsKind.settingsPath host.project .codex) = .found bytes
  logged : (HookSettingsKind.settingsPath host.project .codex, some (host.sha256 bytes)) ∈ log
  parsed : settingsOf host bytes = some settings
  distinct : settings.Distinct
  judged : ∃ source, host.inspectHookValue (HookSettingsKind.settingsPath host.project .codex) settings files = .ok source ∧
    gateOf source = gateOf verdict

theorem recordRead_ok {path content : String} {log after : AuditLog Digest}
    (done : host.recordRead path files log = .ok (some content, after)) :
    ∃ bytes, files.read path = .found bytes ∧ String.fromUTF8? ⟨bytes.toArray⟩ = some content ∧
      after = log ++ [(path, some (host.sha256 bytes))] := by
  rw [recordRead] at done
  split at done
  · next bytes found =>
    split at done
    · next text decoded =>
      cases done
      exact ⟨bytes, found, decoded, rfl⟩
    · cases done
  · cases done
  · cases done

theorem answered_ok {α : Type} {question : CodexFiles → Except String α} {value : α} {log after : AuditLog Digest}
    (done : answered question files log = .ok (value, after)) : question files = .ok value ∧ after = log := by
  unfold answered ask at done
  cases found : question files with
  | error reason =>
    simp only [found] at done
    cases done
  | ok answer =>
    simp only [found] at done
    cases done
    exact ⟨rfl, rfl⟩

theorem projectHooks_judged {verdict : HookVerdict} {log after : AuditLog Digest}
    (done : host.projectHooks files log = .ok (verdict, after)) :
    ∃ bytes settings, ProjectJudged host files after bytes settings verdict := by
  obtain ⟨source, middle, found, done⟩ := bind_ok done
  cases done
  obtain ⟨content, between, read, found⟩ := bind_ok (relabel_ok.mp found)
  obtain ⟨text, later, present, judged⟩ := bind_ok found
  cases content with
  | none => cases present
  | some written =>
    cases present
    obtain ⟨bytes, here, decoded, rfl⟩ := recordRead_ok read
    obtain ⟨inspected, rfl⟩ := answered_ok judged
    unfold inspectHookContent at inspected
    cases parsed : host.parseJson text with
    | error reason =>
      rw [parsed] at inspected
      cases inspected
    | ok settings =>
      rw [parsed] at inspected
      refine ⟨bytes, settings, here, List.mem_append_right _ (List.mem_singleton.mpr rfl), ?_, host.distinct text settings parsed,
        source, inspected, rfl⟩
      rw [settingsOf, decoded, Option.bind_some, parsed]
      rfl

/-- Later steps log more, and leave the gate as it is. -/
theorem ProjectJudged.later {log more : AuditLog Digest} {bytes : List UInt8} {settings : Json} {verdict next : HookVerdict}
    (judged : ProjectJudged host files log bytes settings verdict) (same : gateOf next = gateOf verdict) :
    ProjectJudged host files (log ++ more) bytes settings next where
  read := judged.read
  logged := List.mem_append_left _ judged.logged
  parsed := judged.parsed
  distinct := judged.distinct
  judged := judged.judged.imp fun _ found => ⟨found.1, found.2.trans same.symm⟩

theorem auditConfiguration_judged {configured : Configured} {log : AuditLog Digest}
    (done : host.auditConfiguration fuel files [] = .ok (configured, log)) :
    ∃ bytes settings, ProjectJudged host files log bytes settings configured.verdict := by
  obtain ⟨project, first, reads, done⟩ := bind_ok done
  obtain ⟨verdict, second, user, done⟩ := bind_ok done
  obtain ⟨scans, third, layers, done⟩ := bind_ok done
  obtain ⟨enabled, fourth, plugins, done⟩ := bind_ok done
  cases done
  obtain ⟨bytes, settings, judged⟩ := projectHooks_judged reads
  obtain ⟨_, rfl, _⟩ := replays_userHooks (confirms_same files) rfl project _ _ _ user
  obtain ⟨_, rfl, _⟩ := replays_auditLayers (confirms_same files) _ _ _ _ _ _ _ layers
  obtain ⟨_, rfl, _⟩ := @replays_orHalt _ files files (fun _ => True) _ _ _ _ _ (relabel_ok.mp plugins)
  exact ⟨bytes, settings, ((judged.later (userHooks_gate user)).later rfl).later rfl⟩

/-- The verdict's gate is the project's own. -/
theorem audit_judged (audited : host.auditCodexEffectiveHooks fuel files = .ok (verdict, snapshot)) :
    ∃ bytes settings, ProjectJudged host files snapshot.files bytes settings verdict := by
  obtain ⟨⟨configured, early⟩, configures, audited⟩ := Fold.bind_ok audited
  obtain ⟨⟨inventory, middle⟩, collects, audited⟩ := Fold.bind_ok audited
  obtain ⟨⟨final, late⟩, judges, audited⟩ := Fold.bind_ok audited
  cases audited
  obtain ⟨bytes, settings, judged⟩ := auditConfiguration_judged configures
  obtain ⟨_, rfl, _⟩ := replays_collectPluginHooks host.codexHome configured.enabled _ _ _ (relabel_ok.mp collects)
  obtain ⟨_, rfl, _⟩ := replays_auditPlugins (confirms_same files) rfl inventory configured.verdict _ _ _ judges
  exact ⟨bytes, settings, (judged.later rfl).later (auditPlugins_gate judges)⟩

/-! ### The claim of the snapshot -/

/-- The audit of these files succeeds with the same foreign hooks and the same gate. -/
def Keeps (host : CodexHost Digest) (fuel : Nat) (verdict : HookVerdict) (other : CodexFiles) : Prop :=
  ∃ current snapshot, host.auditCodexEffectiveHooks fuel other = .ok (current, snapshot) ∧
    current.foreignHooks = verdict.foreignHooks ∧ gateOf current = gateOf verdict

/-- Two audits that find one gate in an unchanged file expect the same command of it. -/
theorem gate_expected [DecidableEq Digest] {current : HookVerdict} {again : AuditSnapshot Digest}
    (audited : host.auditCodexEffectiveHooks fuel files = .ok (verdict, snapshot))
    (gated : verdict.hasBlockingPretoolGate = true) (confirms : Confirms host files other (Unchanged host other))
    (holds : ∀ entry ∈ snapshot.files, Unchanged host other entry)
    (repeated : host.auditCodexEffectiveHooks fuel other = .ok (current, again)) (same : gateOf current = gateOf verdict) :
    (host.inspection files).expected = (host.inspection other).expected := by
  obtain ⟨bytes, settings, judged⟩ := audit_judged audited
  obtain ⟨contents, present, afresh⟩ := audit_judged repeated
  have unread := confirms.present _ _ judged.read (holds _ judged.logged)
  rw [afresh.read] at unread
  cases unread
  have parsed := judged.parsed
  rw [afresh.parsed] at parsed
  cases parsed
  obtain ⟨source, inspected, gates⟩ := judged.judged
  obtain ⟨second, reinspected, gates_again⟩ := afresh.judged
  have first := HookSettings.inspectHookValue_named judged.distinct inspected
  have later := HookSettings.inspectHookValue_named judged.distinct reinspected
  have equal : gateOf second = gateOf source := gates_again.trans (same.trans gates.symm)
  have placed : source.gateLocations ≠ [] := first.placed ((congrArg Prod.fst gates).trans gated)
  obtain ⟨location, member⟩ := List.exists_mem_of_ne_nil _ placed
  have here := first.named location member
  have there := later.named location (by rwa [show second.gateLocations = source.gateLocations from congrArg Prod.snd equal])
  exact Option.some.inj (here.symm.trans there)

/-- On files that the snapshot still describes, the audit comes to its verdict if the hook's binary is
there as it was. Where it found a gate, it does so only then. -/
theorem verdict_kept_iff [DecidableEq Digest] (audited : host.auditCodexEffectiveHooks fuel files = .ok (verdict, snapshot))
    (unchanged : host.verifyUnchanged snapshot (some host.codexHome) other = .ok ()) (free : CollisionFree host files other) :
    (hookBinaryPresent host files = hookBinaryPresent host other → Keeps host fuel verdict other) ∧
      (verdict.hasBlockingPretoolGate = true →
        (Keeps host fuel verdict other ↔ hookBinaryPresent host files = hookBinaryPresent host other)) := by
  have kept (same : hookBinaryPresent host files = hookBinaryPresent host other) : Keeps host fuel verdict other := by
    obtain ⟨current, done⟩ := verdict_replayed audited unchanged free (inspection_steady same)
    exact ⟨verdict, current, done, rfl, rfl⟩
  refine ⟨kept, fun gated => ⟨fun keeps => ?_, kept⟩⟩
  obtain ⟨current, again, repeated, _, same⟩ := keeps
  obtain ⟨_, checked, _⟩ := Fold.bind_ok unchanged
  exact present_of_expected (gate_expected audited gated (unchanged_confirms free) (unchanged_of_check checked) repeated same)

private def gateCommand : String := "env WISPHIVE_AGENT_TYPE=codex /b/wisphive-hook"

private def installedHooks : Json :=
  .object [("hooks", .object [("PreToolUse", .array [.object [("matcher", .string ""),
    ("hooks", .array [.object [("type", .string "command"), ("command", .string gateCommand)]])]])])]

/-- A machine on which only the project's hooks file stands, as the installer wrote it. -/
private def workstation : CodexHost (List UInt8) where
  parseToml _ := .error "not needed"
  parseJson text := if text = installedHooks.render then .ok installedHooks else .error "not needed"
  distinct text value done := by
    split at done
    · cases done
      simp [installedHooks, Json.Distinct, Json.DistinctMembers, Json.DistinctItems]
    · cases done
  sha256 := id
  utf8Error _ := "invalid utf-8 sequence"
  debug text := "\"" ++ text ++ "\""
  project := "/p"
  codexHome := "/c"
  exeDir := some "/b"
  daemonHookTimeoutSecs := 600
  sortVersions := id

private def installed (binary : Bool) : CodexFiles where
  read path := if path = "/p/.codex/hooks.json" then .found installedHooks.render.toUTF8.toList else .absent "not found"
  readDir _ := .absent "not found"
  linkMetadata _ := .absent "not found"
  metadata path := if path = "/b/wisphive-hook" ∧ binary then .found .file else .absent "not found"
  canonicalize _ := .error "not found"

private theorem of_succeeds {ε α : Type} {result : Except ε α} {check : α → Bool}
    (succeeds : result.toOption.any check = true) : ∃ value, result = .ok value ∧ check value = true := by
  cases result with
  | error error => cases succeeds
  | ok value => exact ⟨value, rfl, succeeds⟩

/-- The snapshot of the files with the binary holds on the other files, and the gate was found. -/
private def stands (other : CodexFiles) (audited : HookVerdict × AuditSnapshot (List UInt8)) : Bool :=
  audited.1.hasBlockingPretoolGate && (workstation.verifyUnchanged audited.2 (some "/c") other).toOption.isSome

private theorem of_stands {other : CodexFiles}
    (succeeds : (workstation.auditCodexEffectiveHooks 3 (installed true)).toOption.any (stands other) = true) :
    ∃ verdict snapshot, workstation.auditCodexEffectiveHooks 3 (installed true) = .ok (verdict, snapshot) ∧
      verdict.hasBlockingPretoolGate = true ∧ workstation.verifyUnchanged snapshot (some "/c") other = .ok () := by
  obtain ⟨⟨verdict, snapshot⟩, audited, both⟩ := of_succeeds succeeds
  rw [stands, Bool.and_eq_true] at both
  cases verified : workstation.verifyUnchanged snapshot (some "/c") other with
  | error error =>
    rw [verified] at both
    exact absurd both.2 Bool.false_ne_true
  | ok nothing => exact ⟨verdict, snapshot, audited, both.1, verified⟩

private theorem digests_differ (other : CodexFiles) : CollisionFree workstation (installed true) other :=
  fun _ _ _ _ _ same => same

theorem verdict_kept_iff_installed : ∃ verdict snapshot,
    workstation.auditCodexEffectiveHooks 3 (installed true) = .ok (verdict, snapshot) ∧
      workstation.verifyUnchanged snapshot (some "/c") (installed true) = .ok () ∧
      (Keeps workstation 3 verdict (installed true) ↔
        hookBinaryPresent workstation (installed true) = hookBinaryPresent workstation (installed true)) := by
  obtain ⟨verdict, snapshot, audited, gated, unchanged⟩ := @of_stands (installed true) (by decide +kernel)
  exact ⟨verdict, snapshot, audited, unchanged, (verdict_kept_iff audited unchanged (digests_differ _)).2 gated⟩

/-- When the binary disappears, the snapshot still holds, but the hook that was the gate is a foreign
one, and there is no gate. -/
theorem binary_unrecorded : ∃ verdict snapshot,
    workstation.auditCodexEffectiveHooks 3 (installed true) = .ok (verdict, snapshot) ∧
      verdict.hasBlockingPretoolGate = true ∧
      workstation.verifyUnchanged snapshot (some "/c") (installed false) = .ok () ∧
      CollisionFree workstation (installed true) (installed false) ∧
      (∃ current again, workstation.auditCodexEffectiveHooks 3 (installed false) = .ok (current, again) ∧
        current.hasBlockingPretoolGate = false ∧
        current.foreignHooks = ["/p/.codex/hooks.json: <command hook: " ++ gateCommand ++ ">"]) ∧
      ¬ Keeps workstation 3 verdict (installed false) := by
  obtain ⟨verdict, snapshot, audited, gated, unchanged⟩ := @of_stands (installed false) (by decide +kernel)
  have afresh : (workstation.auditCodexEffectiveHooks 3 (installed false)).toOption.any (fun audited =>
      audited.1.hasBlockingPretoolGate = false ∧
        audited.1.foreignHooks = ["/p/.codex/hooks.json: <command hook: " ++ gateCommand ++ ">"]) = true := by
    decide +kernel
  obtain ⟨⟨current, again⟩, repeated, differs⟩ := of_succeeds afresh
  obtain ⟨ungated, foreign⟩ := of_decide_eq_true differs
  refine ⟨verdict, snapshot, audited, gated, unchanged, digests_differ _, ⟨current, again, repeated, ungated, foreign⟩, ?_⟩
  rintro ⟨other, later, found, _, same⟩
  rw [repeated] at found
  cases found
  have gates := congrArg Prod.fst same
  exact absurd (ungated.symm.trans (gates.trans gated)) (by decide)

end Wisphive.CodexHost
