import Mathlib.Tactic
import Wisphive.CodexAudit
import Wisphive.Foundation.Assoc

/-! What the audit of the Codex layers covers: what a scan notes, which layers the worklist
reaches, and the two ways in which a layer or a table is hidden from it. -/

namespace Wisphive
open Foundation

namespace CodexConfigScan
variable {file : String} {table root : TomlTable} {before middle after : CodexConfigScan} {entry : String × Toml}

/-- What was noted stays noted. -/
structure Grows (before after : CodexConfigScan) : Prop where
  disabled : before.hooksFeatureDisabled = true → after.hooksFeatureDisabled = true
  managed : before.managedHooksOnly = true → after.managedHooksOnly = true
  states : ∀ entry ∈ before.hookStateEntries, entry ∈ after.hookStateEntries
  foreign : ∀ source ∈ before.foreignSources, source ∈ after.foreignSources

theorem Grows.refl (scan : CodexConfigScan) : Grows scan scan :=
  ⟨id, id, fun _ => id, fun _ => id⟩

theorem Grows.trans (first : Grows before middle) (second : Grows middle after) : Grows before after where
  disabled := second.disabled ∘ first.disabled
  managed := second.managed ∘ first.managed
  states entry member := second.states entry (first.states entry member)
  foreign source member := second.foreign source (first.foreign source member)

/-- A growth that leaves the selection alone. -/
structure Notes (before after : CodexConfigScan) : Prop extends Grows before after where
  profile : after.activeProfile = before.activeProfile

theorem Notes.refl (scan : CodexConfigScan) : Notes scan scan :=
  ⟨.refl scan, rfl⟩

theorem Notes.trans (first : Notes before middle) (second : Notes middle after) : Notes before after :=
  ⟨first.toGrows.trans second.toGrows, second.profile.trans first.profile⟩

/-- What a scan says about a state entry. -/
def Recorded (entry : String × Toml) (scan : CodexConfigScan) : Prop :=
  ∃ state enabled, entry.2 = .table state ∧ state.lookup "enabled" = enabled.map Toml.boolean ∧
    (entry.1, enabled) ∈ scan.hookStateEntries

theorem Recorded.grows (recorded : Recorded entry before) (grows : Grows before after) : Recorded entry after := by
  obtain ⟨state, enabled, same, found, member⟩ := recorded
  exact ⟨state, enabled, same, found, grows.states _ member⟩

/-- What a scan says about one table. -/
structure Noted (file : String) (table : TomlTable) (scan : CodexConfigScan) : Prop where
  features : ∀ features, table.lookup "features" = some (.table features) → ∀ key ∈ ["hooks", "codex_hooks"],
    ∀ value, features.lookup key = some value → value = .boolean true ∨ scan.hooksFeatureDisabled = true
  states : ∀ hooks state entry, table.lookup "hooks" = some (.table hooks) → ("state", .table state) ∈ hooks →
    entry ∈ state → Recorded entry scan
  foreign : ∀ hooks key value, table.lookup "hooks" = some (.table hooks) → (key, value) ∈ hooks → key ≠ "state" →
    inlineHooks file key ∈ scan.foreignSources

theorem Noted.grows (noted : Noted file table before) (grows : Grows before after) : Noted file table after where
  features features found key named value present := (noted.features features found key named value present).imp_right
    grows.disabled
  states hooks state entry found named member := (noted.states hooks state entry found named member).grows grows
  foreign hooks key value found member other := grows.foreign _ (noted.foreign hooks key value found member other)

theorem scanFeatures_notes (done : scanFeatures file table before = .ok after) :
    Notes before after ∧ ∀ features, table.lookup "features" = some (.table features) →
      ∀ key ∈ ["hooks", "codex_hooks"], ∀ value, features.lookup key = some value →
        value = .boolean true ∨ after.hooksFeatureDisabled = true := by
  unfold scanFeatures at done
  split at done
  · next absent =>
    cases done
    refine ⟨.refl _, fun features found => ?_⟩
    cases absent.symm.trans found
  · next features found =>
    split at done
    · cases done
      exact ⟨⟨⟨fun _ => rfl, id, fun _ => id, fun _ => id⟩, rfl⟩, fun _ _ _ _ _ _ => .inr rfl⟩
    · next plain =>
      cases done
      refine ⟨.refl _, fun other same key named value present => .inl ?_⟩
      cases found.symm.trans same
      by_contra untrue
      refine plain (List.any_eq_true.mpr ⟨key, named, ?_⟩)
      rw [present, Option.any_some, Bool.not_eq_true', Bool.eq_false_iff]
      exact fun isTrue => untrue (Toml.isTrue_iff.mp isTrue)
  · cases done

theorem scanStateEntry_notes (done : scanStateEntry file before entry = .ok after) :
    Notes before after ∧ Recorded entry after := by
  unfold scanStateEntry at done
  split at done
  · next state same =>
    have grown (enabled : Option Bool) : Notes before
        { before with hookStateEntries := before.hookStateEntries ++ [(entry.1, enabled)] } :=
      ⟨⟨id, id, fun _ => List.mem_append_left _, fun _ => id⟩, rfl⟩
    have last {enabled : Option Bool} (found : state.lookup "enabled" = enabled.map Toml.boolean) : Recorded entry
        { before with hookStateEntries := before.hookStateEntries ++ [(entry.1, enabled)] } :=
      ⟨state, enabled, same, found, List.mem_append_right _ (List.mem_singleton.mpr rfl)⟩
    split at done
    · next absent =>
      cases done
      exact ⟨grown none, last absent⟩
    · next enabled found =>
      cases done
      exact ⟨grown (some enabled), last found⟩
    · cases done
  · cases done

theorem scanHook_notes (done : scanHook file before entry = .ok after) :
    Notes before after ∧ (entry.1 ≠ "state" → inlineHooks file entry.1 ∈ after.foreignSources) ∧
      ∀ state, entry = ("state", .table state) → ∀ inner ∈ state, Recorded inner after := by
  unfold scanHook at done
  split at done
  · next named =>
    split at done
    · next state same =>
      have steps (before : CodexConfigScan) (inner : String × Toml) (after : CodexConfigScan) (_ : inner ∈ state)
          (done : scanStateEntry file before inner = .ok after) : Notes before after := (scanStateEntry_notes done).1
      refine ⟨Fold.grows Notes.refl (fun _ _ _ => Notes.trans) steps done, fun other => absurd named other, ?_⟩
      rintro other rfl inner member
      cases same
      obtain ⟨first, second, step, later⟩ := Fold.visits Notes.refl (fun _ _ _ => Notes.trans) steps done member
      exact (scanStateEntry_notes step).2.grows later.toGrows
    · cases done
  · next other =>
    split at done
    · next known =>
      cases done
      refine ⟨.refl _, fun _ => known, ?_⟩
      rintro state rfl
      exact absurd rfl other
    · cases done
      refine ⟨⟨⟨id, id, fun _ => id, fun _ => List.mem_append_left _⟩, rfl⟩,
        fun _ => List.mem_append_right _ (List.mem_singleton.mpr rfl), ?_⟩
      rintro state rfl
      exact absurd rfl other

theorem scanHooks_notes (done : scanHooks file table before = .ok after) :
    Notes before after ∧
      (∀ hooks state entry, table.lookup "hooks" = some (.table hooks) → ("state", .table state) ∈ hooks →
        entry ∈ state → Recorded entry after) ∧
      ∀ hooks key value, table.lookup "hooks" = some (.table hooks) → (key, value) ∈ hooks → key ≠ "state" →
        inlineHooks file key ∈ after.foreignSources := by
  unfold scanHooks at done
  split at done
  · next absent =>
    cases done
    refine ⟨.refl _, fun hooks state entry found => ?_, fun hooks key value found => ?_⟩
    · cases absent.symm.trans found
    · cases absent.symm.trans found
  · next hooks present =>
    have steps (before : CodexConfigScan) (entry : String × Toml) (after : CodexConfigScan) (_ : entry ∈ hooks)
        (done : scanHook file before entry = .ok after) : Notes before after := (scanHook_notes done).1
    refine ⟨Fold.grows Notes.refl (fun _ _ _ => Notes.trans) steps done, ?_, ?_⟩
    · intro others state entry found named member
      cases present.symm.trans found
      obtain ⟨first, second, step, later⟩ := Fold.visits Notes.refl (fun _ _ _ => Notes.trans) steps done named
      exact ((scanHook_notes step).2.2 state rfl entry member).grows later.toGrows
    · intro others key value found member other
      cases present.symm.trans found
      obtain ⟨first, second, step, later⟩ := Fold.visits Notes.refl (fun _ _ _ => Notes.trans) steps done member
      exact later.foreign _ ((scanHook_notes step).2.1 other)
  · cases done

theorem scanProfile_grows (done : scanProfile file table before = .ok after) :
    Grows before after ∧ after.activeProfile = (CodexSetup.ownSelection table).or before.activeProfile := by
  unfold scanProfile at done
  unfold CodexSetup.ownSelection
  split at done
  · next absent =>
    cases done
    exact ⟨.refl _, by rw [absent]; rfl⟩
  · next profile found =>
    split at done
    · cases done
      exact ⟨⟨id, id, fun _ => id, fun _ => id⟩, by rw [found]; rfl⟩
    · cases done
  · cases done

/-- A scan that succeeds, in its four steps. -/
theorem scanTable_steps {deeper : Nat} (done : scanCodexConfigTable file (deeper + 1) table before = .ok after) :
    ∃ featured hooked selected, scanFeatures file table before = .ok featured ∧ scanHooks file table featured = .ok hooked ∧
      scanProfile file table hooked = .ok selected ∧
      (table.lookup "profiles" = none ∧ after = selected ∨ ∃ profiles, table.lookup "profiles" = some (.table profiles) ∧
        profiles.foldlM (scanProfileTable file (scanCodexConfigTable file deeper)) selected = .ok after) := by
  rw [scanCodexConfigTable] at done
  obtain ⟨featured, features, done⟩ := Fold.bind_ok done
  obtain ⟨hooked, hooks, done⟩ := Fold.bind_ok done
  obtain ⟨selected, profile, done⟩ := Fold.bind_ok done
  refine ⟨featured, hooked, selected, features, hooks, profile, ?_⟩
  split at done
  · next absent =>
    cases done
    exact .inl ⟨absent, rfl⟩
  · next profiles found => exact .inr ⟨profiles, found, done⟩
  · cases done

theorem scanTable_grows {deeper : Nat} (done : scanCodexConfigTable file deeper table before = .ok after) :
    Grows before after := by
  induction deeper generalizing table before after with
  | zero => cases done
  | succ deeper ih =>
    obtain ⟨featured, hooked, selected, features, hooks, profile, rest⟩ := scanTable_steps done
    have own := ((scanFeatures_notes features).1.trans (scanHooks_notes hooks).1).toGrows.trans (scanProfile_grows profile).1
    rcases rest with ⟨_, rfl⟩ | ⟨profiles, _, folded⟩
    · exact own
    · refine own.trans (Fold.grows Grows.refl (fun _ _ _ => Grows.trans) (fun before entry after _ step => ?_) folded)
      unfold scanProfileTable at step
      split at step
      · exact ih step
      · cases step

/-- The scan notes the table and every profile table inside it. -/
theorem scanTable_notes {deeper : Nat} (done : scanCodexConfigTable file deeper root before = .ok after)
    (profile : CodexSetup.ProfileOf table root) : Noted file table after := by
  induction deeper generalizing root before after with
  | zero => cases done
  | succ deeper ih =>
    obtain ⟨featured, hooked, selected, features, hooks, chosen, rest⟩ := scanTable_steps done
    have steps (profiles : TomlTable) (before : CodexConfigScan) (entry : String × Toml) (after : CodexConfigScan)
        (_ : entry ∈ profiles) (step : scanProfileTable file (scanCodexConfigTable file deeper) before entry = .ok after) :
        Grows before after := by
      unfold scanProfileTable at step
      split at step
      · exact scanTable_grows step
      · cases step
    cases profile with
    | self =>
      obtain ⟨grown, enabled⟩ := scanFeatures_notes features
      obtain ⟨noted, states, foreign⟩ := scanHooks_notes hooks
      have remaining : Grows hooked after := by
        rcases rest with ⟨_, rfl⟩ | ⟨profiles, _, folded⟩
        · exact (scanProfile_grows chosen).1
        · exact (scanProfile_grows chosen).1.trans
            (Fold.grows Grows.refl (fun _ _ _ => Grows.trans) (steps profiles) folded)
      have own : Noted file table hooked :=
        ⟨fun features found key named value present => (enabled features found key named value present).imp_right noted.disabled,
          states, foreign⟩
      exact own.grows remaining
    | profile nested member deeperProfile =>
      rcases rest with ⟨absent, _⟩ | ⟨profiles, found, folded⟩
      · cases absent.symm.trans nested
      · cases found.symm.trans nested
        obtain ⟨first, second, step, later⟩ :=
          Fold.visits Grows.refl (fun _ _ _ => Grows.trans) (steps _) folded member
        exact (ih step deeperProfile).grows later

/-- The last selection of profile tables that are scanned one after the other. -/
theorem folded_selects {deeper : Nat} {profiles : TomlTable}
    (each : ∀ profile before after, scanCodexConfigTable file deeper profile before = .ok after →
      after.activeProfile = (CodexSetup.selections deeper profile).getLast?.or before.activeProfile)
    (done : profiles.foldlM (scanProfileTable file (scanCodexConfigTable file deeper)) before = .ok after) :
    after.activeProfile = (profiles.flatMap fun entry =>
      match entry.2 with
      | .table profile => CodexSetup.selections deeper profile
      | _ => []).getLast?.or before.activeProfile := by
  induction profiles generalizing before with
  | nil =>
    cases done
    rfl
  | cons entry rest ih =>
    obtain ⟨middle, step, later⟩ := Fold.cons_ok done
    rw [ih later, List.flatMap_cons, List.getLast?_append, Option.or_assoc]
    congr 1
    obtain ⟨name, held⟩ := entry
    cases held with
    | table profile => exact each profile before middle step
    | _ => cases step

/-- The selection that is left is the last one. -/
theorem scanTable_selects {deeper : Nat} (done : scanCodexConfigTable file deeper table before = .ok after) :
    after.activeProfile = (CodexSetup.selections deeper table).getLast?.or before.activeProfile := by
  induction deeper generalizing table before after with
  | zero => cases done
  | succ deeper ih =>
    obtain ⟨featured, hooked, selected, features, hooks, chosen, rest⟩ := scanTable_steps done
    have kept := ((scanFeatures_notes features).1.trans (scanHooks_notes hooks).1).profile
    have own := (scanProfile_grows chosen).2
    rw [kept] at own
    have single : (CodexSetup.ownSelection table).toList.getLast? = CodexSetup.ownSelection table := by
      cases CodexSetup.ownSelection table <;> rfl
    rw [CodexSetup.selections, List.getLast?_append, Option.or_assoc, single, ← own]
    rcases rest with ⟨absent, rfl⟩ | ⟨profiles, found, folded⟩
    · rw [absent]
      rfl
    · rw [found]
      exact folded_selects (fun _ _ _ => ih) folded

section sweep
variable {enter : TomlTable → CodexConfigScan → Except String CodexConfigScan}
  (entered : ∀ inner before after, enter inner before = .ok after → Notes before after)
include entered

theorem sweepItem_notes {item : Toml} (done : sweepItem enter before item = .ok after) : Notes before after := by
  cases item with
  | table inner => exact entered _ _ _ done
  | string | integer | float | boolean | datetime | array =>
    cases done
    exact .refl _

theorem sweepEntry_notes (done : sweepEntry enter before entry = .ok after) :
    Notes before after ∧
      (entry.1 = "allow_managed_hooks_only" → entry.2 ≠ .boolean false → after.managedHooksOnly = true) := by
  unfold sweepEntry at done
  simp only [] at done
  generalize noted : (if entry.1 = "allow_managed_hooks_only" ∧ entry.2.isFalse = false then
    { before with managedHooksOnly := true } else before) = flagged at done
  have first : Notes before flagged := by
    subst noted
    split
    · exact ⟨⟨id, fun _ => rfl, fun _ => id, fun _ => id⟩, rfl⟩
    · exact .refl _
  have rest : Notes flagged after := by
    split at done
    · exact entered _ _ _ done
    · exact Fold.grows Notes.refl (fun _ _ _ => Notes.trans) (fun _ _ _ _ => sweepItem_notes entered) done
    · cases done
      exact .refl _
  refine ⟨first.trans rest, fun named unset => rest.managed ?_⟩
  have raised : entry.2.isFalse = false := Bool.eq_false_iff.mpr fun isFalse => unset (Toml.isFalse_iff.mp isFalse)
  rw [← noted, if_pos ⟨named, raised⟩]

end sweep

theorem sweep_notes {deeper : Nat} (done : sweepManagedHooksOnly file deeper table before = .ok after) :
    Notes before after := by
  induction deeper generalizing table before after with
  | zero => cases done
  | succ deeper ih =>
    exact Fold.grows Notes.refl (fun _ _ _ => Notes.trans)
      (fun _ _ _ _ step => (sweepEntry_notes (fun _ _ _ => ih) step).1) done

/-- The sweep notes every table that it enters. -/
theorem sweep_finds {deeper : Nat} (done : sweepManagedHooksOnly file deeper root before = .ok after)
    (swept : CodexSetup.Swept table root) (sets : CodexSetup.SetsManagedHooksOnly table) :
    after.managedHooksOnly = true := by
  induction deeper generalizing root before after with
  | zero => cases done
  | succ deeper ih =>
    have steps (before : CodexConfigScan) (entry : String × Toml) (after : CodexConfigScan) (_ : entry ∈ root)
        (step : sweepEntry (sweepManagedHooksOnly file deeper) before entry = .ok after) : Notes before after :=
      (sweepEntry_notes (fun _ _ _ => sweep_notes) step).1
    cases swept with
    | self =>
      obtain ⟨value, member, unset⟩ := sets
      obtain ⟨first, second, step, later⟩ := Fold.visits Notes.refl (fun _ _ _ => Notes.trans) steps done member
      exact later.managed ((sweepEntry_notes (fun _ _ _ => sweep_notes) step).2 rfl unset)
    | entry member inside =>
      obtain ⟨first, second, step, later⟩ := Fold.visits Notes.refl (fun _ _ _ => Notes.trans) steps done member
      exact later.managed (ih step inside)
    | item member listed inside =>
      obtain ⟨first, second, step, later⟩ := Fold.visits Notes.refl (fun _ _ _ => Notes.trans) steps done member
      obtain ⟨third, fourth, entered, last⟩ := Fold.visits Notes.refl (fun _ _ _ => Notes.trans)
        (fun _ _ _ _ => sweepItem_notes (fun _ _ _ => sweep_notes)) step listed
      exact later.managed (last.managed (ih entered inside))

theorem scanCodexPluginsFeature_notes (done : scanCodexPluginsFeature file root before = .ok after) :
    Notes before after := by
  unfold scanCodexPluginsFeature at done
  split at done
  · split at done
    · cases done
      exact ⟨⟨id, id, fun _ => id, fun _ => id⟩, rfl⟩
    · cases done
      exact ⟨⟨id, id, fun _ => id, fun _ => id⟩, rfl⟩
    · cases done
  · cases done
    exact .refl _

theorem scanPlugin_notes (done : scanPlugin file before entry = .ok after) : Notes before after := by
  unfold scanPlugin at done
  split at done
  · split at done
    · cases done
      exact ⟨⟨id, id, fun _ => id, fun _ => id⟩, rfl⟩
    · cases done
      exact ⟨⟨id, id, fun _ => id, fun _ => id⟩, rfl⟩
    · cases done
  · cases done

theorem scanCodexPluginConfig_notes (done : scanCodexPluginConfig file root before = .ok after) : Notes before after := by
  unfold scanCodexPluginConfig at done
  split at done
  · cases done
    exact .refl _
  · exact Fold.grows Notes.refl (fun _ _ _ => Notes.trans) (fun _ _ _ _ => scanPlugin_notes) done
  · cases done

/-- What the scan of a document says. -/
structure Scanned (file : String) (root : TomlTable) (scan : CodexConfigScan) : Prop where
  noted : ∀ table, CodexSetup.ProfileOf table root → Noted file table scan
  selected : scan.activeProfile = (CodexSetup.selections codexConfigTables root).getLast?
  swept : ∀ table, CodexSetup.Swept table root → CodexSetup.SetsManagedHooksOnly table → scan.managedHooksOnly = true

theorem scanRoot_scanned {includeUserPlugins : Bool} (done : scanRoot file root includeUserPlugins = .ok after) :
    Scanned file root after := by
  unfold scanRoot at done
  obtain ⟨scan, tables, done⟩ := Fold.bind_ok done
  obtain ⟨featured, feature, done⟩ := Fold.bind_ok done
  obtain ⟨plugged, plugins, done⟩ := Fold.bind_ok done
  have added : Notes featured plugged := by
    unfold scanUserPlugins at plugins
    split at plugins
    · exact scanCodexPluginConfig_notes plugins
    · cases plugins
      exact .refl _
  have later : Notes scan after := ((scanCodexPluginsFeature_notes feature).trans added).trans (sweep_notes done)
  refine ⟨fun table profile => (scanTable_notes tables profile).grows later.toGrows, ?_, fun table => sweep_finds done⟩
  rw [later.profile, scanTable_selects tables, Option.or_none]

end CodexConfigScan

namespace CodexSetup
open CodexConfigScan
variable {setup : CodexSetup} {gateKeys : List String} {state next : LayerAudit} {path : String} {scan : CodexConfigScan}

theorem mem_addNew {known added : List String} {item : String} :
    item ∈ addNew known added ↔ item ∈ known ∨ item ∈ added := by
  induction added generalizing known with
  | nil => simp [addNew]
  | cons head rest ih =>
    have step : addNew known (head :: rest) = addNew (if head ∈ known then known else known ++ [head]) rest := rfl
    rw [step, ih, List.mem_cons]
    split
    · next present =>
      constructor
      · exact fun either => either.imp_right .inr
      · rintro (old | rfl | new)
        · exact .inl old
        · exact .inl present
        · exact .inr new
    · rw [List.mem_append, List.mem_singleton, or_assoc]

/-- An accepted scan disables nothing. -/
structure Harmless (gateKeys : List String) (scan : CodexConfigScan) : Prop where
  enabled : scan.hooksFeatureDisabled = false
  unmanaged : scan.managedHooksOnly = false
  gates : ∀ entry ∈ scan.hookStateEntries, entry.1 ∈ gateKeys → entry.2 = some true

theorem judge_harmless (judged : setup.judge gateKeys path scan = .ok ()) : Harmless gateKeys scan := by
  unfold judge at judged
  split at judged
  · cases judged
  next enabled =>
  split at judged
  · cases judged
  next unmanaged =>
  split at judged
  · cases judged
  next undisabled =>
  split at judged
  · cases judged
  next confirmed =>
  refine ⟨Bool.eq_false_iff.mpr enabled, Bool.eq_false_iff.mpr unmanaged, fun entry member gate => ?_⟩
  have notFalse := List.find?_eq_none.mp undisabled entry member
  have notNone := List.find?_eq_none.mp confirmed entry member
  cases state : entry.2 with
  | none => exact absurd (decide_eq_true ⟨gate, state⟩) notNone
  | some value =>
    cases value with
    | true => rfl
    | false => exact absurd (decide_eq_true ⟨gate, state⟩) notFalse

/-- What a layer that was audited has left. -/
structure Audited (setup : CodexSetup) (gateKeys : List String) (path : String) (state : LayerAudit) : Prop where
  read : path ∈ state.files.map Prod.fst
  judged : ∀ root ∈ setup.document path, ∃ scan, Scanned path root scan ∧ Harmless gateKeys scan ∧
    (∀ source ∈ scan.foreignSources, source ∈ state.foreignHooks) ∧
    ∀ profile ∈ scan.activeProfile, setup.profileLayer profile ∈ state.configLayers

/-- A later state of the worklist has more layers, files and foreign hooks. -/
structure Extends (before after : LayerAudit) : Prop where
  layers : ∃ added, after.configLayers = before.configLayers ++ added
  files : ∀ file ∈ before.files, file ∈ after.files
  foreign : ∀ source ∈ before.foreignHooks, source ∈ after.foreignHooks

theorem Extends.refl (state : LayerAudit) : Extends state state :=
  ⟨⟨[], (List.append_nil _).symm⟩, fun _ => id, fun _ => id⟩

theorem Extends.trans {before middle after : LayerAudit} (first : Extends before middle) (second : Extends middle after) :
    Extends before after := by
  obtain ⟨added, same⟩ := first.layers
  obtain ⟨later, again⟩ := second.layers
  exact ⟨⟨added ++ later, by rw [again, same, List.append_assoc]⟩, fun file => second.files file ∘ first.files file,
    fun source => second.foreign source ∘ first.foreign source⟩

theorem Extends.mem (extend : Extends state next) (member : path ∈ state.configLayers) : path ∈ next.configLayers := by
  obtain ⟨added, same⟩ := extend.layers
  exact same ▸ List.mem_append_left _ member

theorem Audited.extends (audited : Audited setup gateKeys path state) (extend : Extends state next) :
    Audited setup gateKeys path next := by
  refine ⟨?_, fun root found => ?_⟩
  · obtain ⟨file, member, same⟩ := List.mem_map.mp audited.read
    exact List.mem_map.mpr ⟨file, extend.files file member, same⟩
  · obtain ⟨scan, scanned, harmless, foreign, layers⟩ := audited.judged root found
    exact ⟨scan, scanned, harmless, fun source member => extend.foreign source (foreign source member),
      fun profile selected => extend.mem (layers profile selected)⟩

theorem addNew_append (known added : List String) : ∃ fresh, addNew known added = known ++ fresh := by
  induction added generalizing known with
  | nil => exact ⟨[], (List.append_nil _).symm⟩
  | cons head rest ih =>
    obtain ⟨fresh, same⟩ := ih (if head ∈ known then known else known ++ [head])
    have step : addNew known (head :: rest) = addNew (if head ∈ known then known else known ++ [head]) rest := rfl
    rw [step, same]
    split
    · exact ⟨fresh, rfl⟩
    · exact ⟨head :: fresh, List.append_assoc ..⟩

/-- What one step of the worklist does: a layer that is absent is only read, and any other is scanned. -/
theorem auditLayer_cases (done : setup.auditLayer gateKeys state path = .ok next) :
    (setup.document path = none ∧ next = { state with files := state.files ++ [(path, none)] }) ∨
      ∃ content root scan, (path, .text content) ∈ setup.files ∧ setup.document path = some root ∧
        Scanned path root scan ∧ Harmless gateKeys scan ∧ next.files = state.files ++ [(path, some content)] ∧
        next.foreignHooks = addNew state.foreignHooks scan.foreignSources ∧
        next.configLayers = addNew state.configLayers (scan.activeProfile.map setup.profileLayer).toList := by
  unfold auditLayer at done
  cases found : setup.files.lookup path with
  | none =>
    have read : setup.readFile path = .ok none := by
      unfold readFile
      rw [found]
    rw [read] at done
    cases done
    refine .inl ⟨?_, rfl⟩
    unfold document
    rw [found]
  | some file =>
  cases file with
  | notUtf8 reason | unreadable reason =>
    unfold readFile at done
    rw [found] at done
    cases done
  | text content =>
    have read : setup.readFile path = .ok (some content) := by
      unfold readFile
      rw [found]
    rw [read] at done
    simp only [] at done
    split at done
    · cases done
    next scan scanned =>
    split at done
    · cases done
    next judged =>
    cases done
    unfold scanCodexConfigToml at scanned
    split at scanned
    · cases scanned
    next root parsed =>
    refine .inr ⟨content, root, scan, Assoc.mem_of_lookup found, ?_, scanRoot_scanned scanned, judge_harmless judged, rfl, rfl,
      rfl⟩
    unfold document
    rw [found]
    change (setup.parse content).toOption = some root
    rw [parsed]
    rfl

theorem auditLayer_audited (done : setup.auditLayer gateKeys state path = .ok next) :
    Extends state next ∧ Audited setup gateKeys path next := by
  rcases auditLayer_cases done with ⟨absent, rfl⟩ | ⟨content, root, scan, _, found, scanned, harmless, files, foreign, layers⟩
  · refine ⟨⟨⟨[], (List.append_nil _).symm⟩, fun _ => List.mem_append_left _, fun _ => id⟩, ?_, fun root found => ?_⟩
    · exact List.mem_map.mpr ⟨(path, none), List.mem_append_right _ (List.mem_singleton.mpr rfl), rfl⟩
    · cases absent.symm.trans found
  · refine ⟨⟨?_, ?_, ?_⟩, ?_, fun other same => ?_⟩
    · rw [layers]
      exact addNew_append ..
    · rw [files]
      exact fun _ => List.mem_append_left _
    · rw [foreign]
      exact fun _ member => mem_addNew.mpr (.inl member)
    · rw [files]
      exact List.mem_map.mpr ⟨(path, some content), List.mem_append_right _ (List.mem_singleton.mpr rfl), rfl⟩
    · cases found.symm.trans same
      refine ⟨scan, scanned, harmless, ?_, fun profile selected => ?_⟩
      · rw [foreign]
        exact fun _ member => mem_addNew.mpr (.inr member)
      · rw [layers, selected]
        exact mem_addNew.mpr (.inr (List.mem_singleton.mpr rfl))

/-- A worklist that returns its layers is at its end, or goes on behind the next layer. -/
theorem auditLayers_cases {fuel index : Nat} {final : LayerAudit}
    (done : setup.auditLayers gateKeys fuel index state = some (.ok final)) :
    (state.configLayers[index]? = none ∧ final = state) ∨
      ∃ path left middle, state.configLayers[index]? = some path ∧ fuel = left + 1 ∧
        setup.auditLayer gateKeys state path = .ok middle ∧
        setup.auditLayers gateKeys left (index + 1) middle = some (.ok final) := by
  unfold auditLayers at done
  split at done
  · next last =>
    cases done
    exact .inl ⟨last, rfl⟩
  next path here =>
  split at done
  · cases done
  next left =>
  split at done
  · cases done
  · next middle audited => exact .inr ⟨path, left, middle, here, rfl, audited, done⟩

/-- What every layer preserves, the worklist preserves. -/
theorem auditLayers_preserves {holds : LayerAudit → Prop} {fuel index : Nat} {final : LayerAudit} (initial : holds state)
    (preserved : ∀ state path next, holds state → path ∈ state.configLayers →
      setup.auditLayer gateKeys state path = .ok next → holds next)
    (done : setup.auditLayers gateKeys fuel index state = some (.ok final)) : holds final := by
  induction fuel generalizing index state with
  | zero =>
    rcases auditLayers_cases done with ⟨_, rfl⟩ | ⟨_, _, _, _, empty, _⟩
    · exact initial
    · cases empty
  | succ fuel ih =>
    rcases auditLayers_cases done with ⟨_, rfl⟩ | ⟨path, left, middle, here, more, audited, later⟩
    · exact initial
    · cases more
      exact ih (preserved _ _ _ initial (List.mem_of_getElem? here) audited) later

/-- When the worklist is done, every layer of it was audited. -/
theorem auditLayers_audited {fuel index : Nat} {final : LayerAudit}
    (earlier : ∀ position path, position < index → state.configLayers[position]? = some path →
      Audited setup gateKeys path state)
    (done : setup.auditLayers gateKeys fuel index state = some (.ok final)) :
    Extends state final ∧ ∀ path ∈ final.configLayers, Audited setup gateKeys path final := by
  induction fuel generalizing index state with
  | zero =>
    rcases auditLayers_cases done with ⟨last, rfl⟩ | ⟨_, _, _, _, empty, _⟩
    · refine ⟨.refl _, fun path member => ?_⟩
      obtain ⟨position, inside, same⟩ := List.mem_iff_getElem.mp member
      have bound := List.getElem?_eq_none_iff.mp last
      exact earlier position path (by omega) (List.getElem?_eq_some_iff.mpr ⟨inside, same⟩)
    · cases empty
  | succ fuel ih =>
    rcases auditLayers_cases done with ⟨last, rfl⟩ | ⟨path, left, middle, here, more, audited, later⟩
    · refine ⟨.refl _, fun path member => ?_⟩
      obtain ⟨position, inside, same⟩ := List.mem_iff_getElem.mp member
      have bound := List.getElem?_eq_none_iff.mp last
      exact earlier position path (by omega) (List.getElem?_eq_some_iff.mpr ⟨inside, same⟩)
    · cases more
      obtain ⟨extend, own⟩ := auditLayer_audited audited
      obtain ⟨added, layers⟩ := extend.layers
      have known (position : Nat) (other : String) (before : position < index + 1)
          (at_ : middle.configLayers[position]? = some other) : Audited setup gateKeys other middle := by
        have inside : position < state.configLayers.length :=
          (Nat.lt_succ_iff.mp before).trans_lt (List.getElem?_eq_some_iff.mp here).1
        rw [layers, List.getElem?_append_left inside] at at_
        rcases Nat.lt_succ_iff_lt_or_eq.mp before with lower | rfl
        · exact (earlier position other lower at_).extends extend
        · cases here.symm.trans at_
          exact own
      obtain ⟨rest, all⟩ := ih known later
      exact ⟨extend.trans rest, all⟩

/-- The layers that the documents can add. -/
def offered (setup : CodexSetup) : List String :=
  setup.files.filterMap fun entry =>
    (setup.document entry.1).bind fun root => (selections codexConfigTables root).getLast?.map setup.profileLayer

/-- The worklist is the base layers, and behind them offered ones, each once. -/
def Offered (setup : CodexSetup) (state : LayerAudit) : Prop :=
  ∃ pushed, state.configLayers = setup.baseLayers ++ pushed ∧ pushed.Nodup ∧ ∀ layer ∈ pushed, layer ∈ setup.offered

theorem Offered.layer (offered : Offered setup state) (done : setup.auditLayer gateKeys state path = .ok next) :
    Offered setup next := by
  rcases auditLayer_cases done with ⟨_, rfl⟩ | ⟨content, root, scan, member, found, scanned, _, _, _, layers⟩
  · exact offered
  · obtain ⟨pushed, same, distinct, known⟩ := offered
    cases selected : scan.activeProfile with
    | none =>
      refine ⟨pushed, ?_, distinct, known⟩
      rw [layers, selected]
      exact same
    | some profile =>
      have step : addNew state.configLayers [setup.profileLayer profile] =
          if setup.profileLayer profile ∈ state.configLayers then state.configLayers
          else state.configLayers ++ [setup.profileLayer profile] := rfl
      rw [selected, Option.map_some, Option.toList_some, step] at layers
      split at layers
      · exact ⟨pushed, layers.trans same, distinct, known⟩
      · next fresh =>
        rw [same] at fresh
        refine ⟨pushed ++ [setup.profileLayer profile], by rw [layers, same, List.append_assoc], ?_, ?_⟩
        · refine List.nodup_append.mpr ⟨distinct, List.nodup_singleton _, fun layer inside other last equal => ?_⟩
          cases List.mem_singleton.mp last
          exact fresh (List.mem_append_right _ (equal ▸ inside))
        · intro layer inside
          rcases List.mem_append.mp inside with old | new
          · exact known layer old
          · cases List.mem_singleton.mp new
            refine List.mem_filterMap.mpr ⟨_, member, ?_⟩
            rw [found, Option.bind_some, ← scanned.selected, selected, Option.map_some]

theorem Offered.length (offered : Offered setup state) : state.configLayers.length ≤ 3 + setup.files.length := by
  obtain ⟨pushed, same, distinct, known⟩ := offered
  have few : pushed.length ≤ setup.offered.length := (distinct.subperm known).length_le
  have offers : setup.offered.length ≤ setup.files.length := List.length_filterMap_le ..
  have base : setup.baseLayers.length = 3 := rfl
  rw [same, List.length_append, base]
  omega

/-- The worklist ends: it never has more layers than there are base layers and files. -/
theorem auditLayers_ends {fuel index : Nat} (offered : Offered setup state)
    (enough : 3 + setup.files.length ≤ fuel + index) : (setup.auditLayers gateKeys fuel index state).isSome = true := by
  induction fuel generalizing index state with
  | zero =>
    have last : state.configLayers[index]? = none := List.getElem?_eq_none_iff.mpr (offered.length.trans (by omega))
    unfold auditLayers
    rw [last]
    rfl
  | succ fuel ih =>
    unfold auditLayers
    split
    · rfl
    · simp only []
      split
      · rfl
      · next middle audited => exact ih (offered.layer audited) (by omega)

/-- Every layer of the worklist, and every file that was read, is followed. -/
structure Sourced (setup : CodexSetup) (state : LayerAudit) : Prop where
  layers : ∀ path ∈ state.configLayers, setup.Followed path
  files : ∀ path ∈ state.files.map Prod.fst, setup.Followed path

theorem Sourced.layer (sourced : Sourced setup state) (here : path ∈ state.configLayers)
    (done : setup.auditLayer gateKeys state path = .ok next) : Sourced setup next := by
  have own := sourced.layers path here
  have read (content : Option String) : ∀ other ∈ (state.files ++ [(path, content)]).map Prod.fst, setup.Followed other := by
    intro other member
    rw [List.map_append] at member
    rcases List.mem_append.mp member with old | new
    · exact sourced.files other old
    · exact List.mem_singleton.mp new ▸ own
  rcases auditLayer_cases done with ⟨_, rfl⟩ | ⟨content, root, scan, _, found, scanned, _, files, _, layers⟩
  · exact ⟨sourced.layers, read none⟩
  · refine ⟨fun other member => ?_, files ▸ read (some content)⟩
    rw [layers] at member
    rcases mem_addNew.mp member with old | new
    · exact sourced.layers other old
    · cases selected : scan.activeProfile with
      | none =>
        rw [selected] at new
        cases new
      | some profile =>
        rw [selected] at new
        cases List.mem_singleton.mp new
        exact .selected own found (scanned.selected.symm.trans selected)

section accepted
variable {fuel : Nat} {final : LayerAudit} {foreign : List String}

/-- The worklist that is done is what is followed. -/
theorem followed_iff (sound : Sourced setup final) (base : ∀ path ∈ setup.baseLayers, path ∈ final.configLayers)
    (all : ∀ path ∈ final.configLayers, Audited setup gateKeys path final) :
    setup.Followed path ↔ path ∈ final.configLayers := by
  refine ⟨fun followed => ?_, sound.layers path⟩
  induction followed with
  | base member => exact base _ member
  | selected _ found last ih =>
    obtain ⟨scan, scanned, _, _, layers⟩ := (all _ ih).judged _ found
    exact layers _ (scanned.selected.trans last)

/-- What was audited is covered, but for the tables that the sweep does not enter. -/
theorem Audited.covered {root table : TomlTable} (audited : Audited setup gateKeys path final)
    (found : setup.document path = some root) (profile : ProfileOf table root) :
    (∀ features, table.lookup "features" = some (.table features) →
        ∀ key ∈ ["hooks", "codex_hooks"], ∀ value, features.lookup key = some value → value = .boolean true) ∧
      (∀ hooks state key entry, table.lookup "hooks" = some (.table hooks) → ("state", .table state) ∈ hooks →
        (key, entry) ∈ state → key ∈ gateKeys → ∃ inner, entry = .table inner ∧
          inner.lookup "enabled" = some (.boolean true)) ∧
      ∀ hooks key value, table.lookup "hooks" = some (.table hooks) → (key, value) ∈ hooks → key ≠ "state" →
        inlineHooks path key ∈ final.foreignHooks := by
  obtain ⟨scan, scanned, harmless, sources, _⟩ := audited.judged root found
  have noted := scanned.noted table profile
  refine ⟨?_, ?_, ?_⟩
  · intro features present key named value set
    rcases noted.features features present key named value set with enabled | disabled
    · exact enabled
    · rw [harmless.enabled] at disabled
      cases disabled
  · intro hooks state key entry present named member gate
    obtain ⟨inner, enabled, same, value, recorded⟩ := noted.states hooks state (key, entry) present named member
    have confirmed : enabled = some true := harmless.gates _ recorded gate
    rw [confirmed] at value
    exact ⟨inner, same, value⟩
  · intro hooks key value present member other
    exact sources _ (noted.foreign hooks key value present member other)

theorem Audited.unmanaged {root table : TomlTable} (audited : Audited setup gateKeys path final)
    (found : setup.document path = some root) (swept : Swept table root) : ¬ SetsManagedHooksOnly table := by
  obtain ⟨scan, scanned, harmless, _⟩ := audited.judged root found
  intro sets
  have managed := scanned.swept table swept sets
  rw [harmless.unmanaged] at managed
  cases managed

end accepted

/-- The audit always ends, and an inventory that it accepts covers every loaded layer exactly if
no selection hides a layer and no array in an array hides a table. -/
theorem codex_audit_covers_iff (setup : CodexSetup) :
    (setup.auditCodexEffectiveHooks (3 + setup.files.length)).isSome = true ∧
      ∀ fuel accepted, setup.auditCodexEffectiveHooks fuel = some (.ok accepted) →
        (setup.Covers accepted ↔ setup.Unhidden) := by
  refine ⟨?_, fun fuel accepted done => ?_⟩
  · unfold auditCodexEffectiveHooks
    split
    · rfl
    · next security _ =>
      rw [Option.isSome_map]
      exact auditLayers_ends ⟨[], (List.append_nil _).symm, List.nodup_nil, nofun⟩ (Nat.le_refl _)
  · unfold auditCodexEffectiveHooks at done
    split at done
    · cases done
    next security _ =>
    obtain ⟨audited, ran, rest⟩ := Option.map_eq_some_iff.mp done
    obtain ⟨final, rfl, plugins⟩ := Fold.bind_ok rest
    obtain ⟨extend, all⟩ := auditLayers_audited (fun _ _ before => absurd before (Nat.not_lt_zero _)) ran
    have base (path : String) (member : path ∈ setup.baseLayers) : path ∈ final.configLayers := extend.mem member
    have sound : Sourced setup final :=
      auditLayers_preserves ⟨fun _ member => .base member, fun _ member => absurd member List.not_mem_nil⟩ (fun _ _ _ sourced here => sourced.layer here) ran
    cases foreign : setup.pluginHooks (((final.projectPluginsFeature.or final.profilePluginsFeature).or
        final.userPluginsFeature).getD true) final.configuredPlugins with
    | error message =>
      simp only [foreign] at plugins
      cases plugins
    | ok added =>
      simp only [foreign] at plugins
      cases plugins
      constructor
      · intro covers
        exact ⟨fun path loaded => sound.files path (covers.scanned path loaded),
          fun path loaded root found table within sets => absurd sets (covers.unmanaged path loaded root found table within)⟩
      · intro unhidden
        have audited (path : String) (loaded : setup.Loaded path) :
            Audited setup (setup.gateStateKeys security.gateLocations) path final :=
          all path ((followed_iff sound base all).mp (unhidden.selections path loaded))
        refine ⟨fun path loaded => (audited path loaded).read, ?_, ?_, ?_, ?_⟩
        · exact fun path loaded root found table profile => ((audited path loaded).covered found profile).1
        · exact fun path loaded root found table within sets =>
            (audited path loaded).unmanaged found (unhidden.arrays path loaded root found table within sets) sets
        · exact fun path loaded root found table profile => ((audited path loaded).covered found profile).2.1
        · intro path loaded root found table profile hooks key value present member other
          have reported := ((audited path loaded).covered found profile).2.2 hooks key value present member other
          exact mem_addNew.mpr (.inl reported)

/-- A home whose user configuration and `work` profile are the given documents. -/
private def homeWith (user work : String × TomlTable) : CodexSetup where
  parse content := if content = user.1 then .ok user.2 else if content = work.1 then .ok work.2 else .error "no document"
  files := [("/c/config.toml", .text user.1), ("/c/work.config.toml", .text work.1)]
  project := "/p"
  codexHome := "/c"
  hookFiles := .ok { gateLocations := [(0, 0)] }
  pluginHooks _ _ := .ok []

private def selectingConfig : String × TomlTable :=
  ("profile = \"work\"", [("profile", .string "work")])

private def hidingConfig : String × TomlTable :=
  ("profile = \"work\"\n[profiles.old]\nprofile = \"old\"",
    [("profile", .string "work"), ("profiles", .table [("old", .table [("profile", .string "old")])])])

private def nestingConfig : String × TomlTable :=
  ("layers = [[\x7ballow_managed_hooks_only = true\x7d]]",
    [("layers", .array [.array [.table [("allow_managed_hooks_only", .boolean true)]]])])

private def enabledConfig : String × TomlTable :=
  ("[features]\nhooks = true", [("features", .table [("hooks", .boolean true)])])

private def disabledConfig : String × TomlTable :=
  ("[features]\nhooks = false", [("features", .table [("hooks", .boolean false)])])

private theorem homeWith_document {user work : String × TomlTable} {root : TomlTable}
    (found : (homeWith user work).document path = some root) : root = user.2 ∨ root = work.2 := by
  have parsed {content : String} (some_root : ((homeWith user work).parse content).toOption = some root) :
      root = user.2 ∨ root = work.2 := by
    unfold homeWith at some_root
    simp only [] at some_root
    split at some_root
    · cases some_root
      exact .inl rfl
    · split at some_root
      · cases some_root
        exact .inr rfl
      · cases some_root
  unfold document at found
  split at found
  · exact parsed found
  · cases found

private theorem plain_unhidden : (homeWith selectingConfig enabledConfig).Unhidden where
  selections path loaded := by
    induction loaded with
    | base member => exact .base member
    | selected _ found selects followed =>
      refine .selected followed found ?_
      rcases homeWith_document found with rfl | rfl
      · cases selects
        rfl
      · cases selects
  arrays path loaded root found table within sets := by
    obtain ⟨value, member, _⟩ := sets
    rcases homeWith_document found with rfl | rfl
    · cases within with
      | self => simp [selectingConfig] at member
      | entry inside deeper =>
        cases List.mem_singleton.mp inside
        cases deeper
    · cases within with
      | self => simp [enabledConfig] at member
      | entry inside deeper =>
        cases List.mem_singleton.mp inside
        cases deeper with
        | self => simp at member
        | entry inner last =>
          cases List.mem_singleton.mp inner
          cases last

private theorem accepted_of {fuel : Nat} (accepts : ((setup.auditCodexEffectiveHooks fuel).bind Except.toOption).isSome = true) :
    ∃ accepted, setup.auditCodexEffectiveHooks fuel = some (.ok accepted) := by
  obtain ⟨accepted, same⟩ := Option.isSome_iff_exists.mp accepts
  obtain ⟨outcome, done, accepting⟩ := Option.bind_eq_some_iff.mp same
  cases outcome with
  | error message => cases accepting
  | ok inventory => exact ⟨inventory, done⟩

theorem codex_audit_covers_iff_plain : ∃ accepted,
    (homeWith selectingConfig enabledConfig).auditCodexEffectiveHooks 5 = some (.ok accepted) ∧
      (homeWith selectingConfig enabledConfig).Covers accepted := by
  obtain ⟨accepted, done⟩ := @accepted_of (homeWith selectingConfig enabledConfig) 5 (by decide +kernel)
  exact ⟨accepted, done, ((codex_audit_covers_iff _).2 5 accepted done).mpr plain_unhidden⟩

/-- A profiles table hides the profile that the root selects, in which hooks are disabled, and an
array in an array hides a table that turns every other hook off. -/
theorem hidden_layers_accepted :
    (∃ accepted, (homeWith hidingConfig disabledConfig).auditCodexEffectiveHooks 5 = some (.ok accepted) ∧
      ¬ (homeWith hidingConfig disabledConfig).Covers accepted) ∧
    ∃ accepted, (homeWith nestingConfig enabledConfig).auditCodexEffectiveHooks 5 = some (.ok accepted) ∧
      ¬ (homeWith nestingConfig enabledConfig).Covers accepted := by
  constructor
  · obtain ⟨accepted, done⟩ := @accepted_of (homeWith hidingConfig disabledConfig) 5 (by decide +kernel)
    refine ⟨accepted, done, fun covers => ?_⟩
    have user : (homeWith hidingConfig disabledConfig).document "/c/config.toml" = some hidingConfig.2 := rfl
    have loaded : (homeWith hidingConfig disabledConfig).Loaded "/c/work.config.toml" :=
      .selected (.base (List.mem_cons_self ..)) user rfl
    have work : (homeWith hidingConfig disabledConfig).document "/c/work.config.toml" = some disabledConfig.2 := by
      rfl
    have enabled := covers.enabled _ loaded _ work _ .self _ rfl "hooks" (List.mem_cons_self ..) _ rfl
    cases enabled
  · obtain ⟨accepted, done⟩ := @accepted_of (homeWith nestingConfig enabledConfig) 5 (by decide +kernel)
    refine ⟨accepted, done, fun covers => ?_⟩
    have user : (homeWith nestingConfig enabledConfig).document "/c/config.toml" = some nestingConfig.2 := rfl
    have nested : Toml.Within [("allow_managed_hooks_only", .boolean true)] (.table nestingConfig.2) :=
      .entry (List.mem_singleton.mpr rfl) (.item (List.mem_singleton.mpr rfl) (.item (List.mem_singleton.mpr rfl) .self))
    exact covers.unmanaged _ (.base (List.mem_cons_self ..)) _ user _ nested ⟨_, List.mem_singleton.mpr rfl, nofun⟩

end CodexSetup
end Wisphive
