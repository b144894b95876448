import Wisphive.SegmentRecovery
import Wisphive.Proofs.EventFiles

/-! What a recovery loses and what it reaches. A segment that cannot be imported is renamed
over the failed segment of its stem, and a line that is no UTF-8 hides the lines behind it. -/

namespace Wisphive.SegmentRecovery
open Foundation

variable {platform : IngestPlatform} {Store : Type} {insert : LogRow → Store → Store} {initial : Run.Start Store}
  {run after : Run Store} {name : String}

namespace LogFile
variable (platform)

/-- A line that is no UTF-8, or a statement of its decisions that fails, fails its import. -/
def Fails (file : LogFile) (faults : List Bool) : Prop :=
  (∃ line ∈ file.lines, EventIngest.valid line = false) ∨ true ∈ faults.take (file.texts platform).length

instance (file : LogFile) (faults : List Bool) : Decidable (file.Fails platform faults) :=
  inferInstanceAs (Decidable (_ ∨ _))

/-- The decision lines before whatever fails its import. -/
def before (file : LogFile) (faults : List Bool) : List String :=
  EventIngest.untilFault (file.reachable platform) faults

end LogFile

namespace Run
variable (platform)

/-- The decision lines that the rename would overwrite have been accepted. -/
def Preserved (run : Run Store) (name : String) (accepted : List String) : Prop :=
  ∀ other ∈ run.files, other.name = failedName name → isSegment other.name = true →
    ∀ text ∈ other.texts platform, text ∈ run.accepted ++ accepted

instance (run : Run Store) (name : String) (accepted : List String) : Decidable (run.Preserved platform name accepted) :=
  inferInstanceAs (Decidable (∀ other ∈ run.files, _ → _ → ∀ text ∈ other.texts platform, _))

/-- The import of a segment fails and its rename succeeds only where nothing is overwritten
that was not accepted, and no segment is pruned that the recovery skipped. -/
def Meets (run : Run Store) : Event → Prop
  | .recover _ => True
  | .reimport faults renames _ =>
    match run.phase with
    | .recovering _ (name :: _) => ∀ file ∈ run.find name, isFailed name = false → renames = true →
      file.Fails platform faults → run.Preserved platform name (file.before platform faults)
    | _ => True
  | .prune cutoff kept =>
    match run.phase with
    | .recovering skipped [] => ∀ file ∈ run.files, file.name ∈ skipped →
      (isReapable file.name && file.modified < cutoff && file.name ∉ kept) = true → isSegment file.name = true →
      ∀ text ∈ file.texts platform, text ∈ run.accepted
    | _ => True
  | .rotate file faults renames => renames = true → file.Fails platform faults →
    run.Preserved platform file.name (file.before platform faults)

instance (run : Run Store) (event : Event) : Decidable (run.Meets platform event) := by
  unfold Meets
  split
  · infer_instance
  · split <;> infer_instance
  · split <;> infer_instance
  · infer_instance

end Run

/-- An import fails as its file and its statements say. -/
theorem import_fails {file : LogFile} {faults : List Bool} :
    (run.reimportAll platform insert file faults).ok = false ↔ file.Fails platform faults := by
  rw [← Bool.not_eq_true, Run.reimportAll, EventIngest.reimportAll, EventIngest.ok_iff, not_and_or, not_forall, not_not]
  simp only [Classical.not_imp, Bool.not_eq_true]
  rw [LogFile.Fails, LogFile.texts, textsOf, List.length_map]
  rfl

theorem import_accepted {file : LogFile} {faults : List Bool} :
    (run.reimportAll platform insert file faults).accepted = file.before platform faults :=
  EventIngest.accepted_eq

theorem endsWith_iff {mark : String} : endsWith name mark = true ↔ mark.toList <:+ name.toList :=
  List.isSuffixOf_iff_suffix

/-- Behind the stem the new extension stands for the old one. -/
theorem failedName_toList (segment : endsWith name ".jsonl" = true) :
    ∃ stem, name.toList = stem ++ ".jsonl".toList ∧ (failedName name).toList = stem ++ ".failed.jsonl".toList := by
  obtain ⟨stem, whole⟩ := endsWith_iff.mp segment
  refine ⟨stem, whole.symm, ?_⟩
  rw [failedName, String.toList_ofList, ← whole, List.length_append]
  have count : stem.length + ".jsonl".toList.length - 5 = stem.length + 1 := rfl
  rw [count, List.take_length_add_append, List.append_assoc]
  rfl

theorem endsWith_of_segment (segment : isSegment name = true) : endsWith name ".jsonl" = true := by
  simp only [isSegment, isNormal, isFailed, Bool.or_eq_true, Bool.and_eq_true] at segment
  rcases segment with ⟨⟨_, suffix⟩, _⟩ | ⟨_, suffix⟩
  · exact suffix
  · apply endsWith_iff.mpr
    exact List.IsSuffix.trans (by decide) (endsWith_iff.mp suffix)

/-- The failed name is no name of a normal segment. -/
theorem failedName_not_normal (segment : endsWith name ".jsonl" = true) : isNormal (failedName name) = false := by
  obtain ⟨stem, _, renamed⟩ := failedName_toList segment
  have suffix : endsWith (failedName name) ".failed.jsonl" = true :=
    endsWith_iff.mpr ⟨stem, renamed.symm⟩
  unfold isNormal isFailed
  rw [suffix]
  cases startsWith (failedName name) "events-" <;> simp

theorem lt_of_common_prefix {stem : List Char} {first second : List Char} (less : first < second) :
    stem ++ first < stem ++ second := by
  induction stem with
  | nil => exact less
  | cons char rest ih => exact List.cons_lt_cons_iff.mpr (.inr ⟨rfl, ih⟩)

/-- A failed segment is taken before the normal one of its stem. -/
theorem failedName_lt (segment : endsWith name ".jsonl" = true) : failedName name < name := by
  obtain ⟨stem, whole, renamed⟩ := failedName_toList segment
  rw [String.lt_iff_toList_lt, whole, renamed]
  exact lt_of_common_prefix (by decide)

theorem normal_or_failed (segment : isSegment name = true) : isNormal name = true ∨ isFailed name = true :=
  Bool.or_eq_true _ _ ▸ segment

theorem normal_of_unfailed (segment : isSegment name = true) (unfailed : isFailed name = false) :
    isNormal name = true := by
  rcases normal_or_failed segment with normal | failed
  · exact normal
  · rw [unfailed] at failed
    cases failed

theorem unfailed_of_normal (normal : isNormal name = true) : isFailed name = false := by
  simp only [isNormal, Bool.and_eq_true, Bool.not_eq_true'] at normal
  exact normal.2

/-- Only normal segments are pruned. -/
theorem normal_of_reapable (reapable : isReapable name = true) (segment : isSegment name = true) :
    isNormal name = true := by
  apply normal_of_unfailed segment
  unfold isReapable at reapable
  split at reapable
  · cases reapable
  next other =>
    unfold isFailed
    rw [Bool.eq_false_iff.mpr other, Bool.and_false]

namespace Run
variable {gone : LogFile → Bool}

theorem discard_lost : (run.discard platform gone).lost = [] ↔ run.lost = [] ∧
    ∀ file ∈ run.files, gone file = true → isSegment file.name = true →
      ∀ text ∈ file.texts platform, text ∈ run.accepted := by
  simp only [discard, List.append_eq_nil_iff, List.filter_eq_nil_iff, List.mem_flatMap, List.mem_filter,
    List.mem_map, Bool.and_eq_true, decide_eq_true_eq, not_not]
  constructor
  · rintro ⟨nothing, all⟩
    exact ⟨nothing, fun file member chosen segment text held => all _ ⟨file, ⟨member, chosen, segment⟩, text, held, rfl⟩⟩
  · rintro ⟨nothing, all⟩
    refine ⟨nothing, ?_⟩
    rintro _ ⟨file, ⟨member, chosen, segment⟩, text, held, rfl⟩
    exact all file member chosen segment text held

theorem preserve_lost : (run.preserve platform name).lost = [] ↔ run.lost = [] ∧ run.Preserved platform name [] := by
  rw [show (run.preserve platform name).lost = (run.discard platform (·.name = failedName name)).lost from rfl,
    discard_lost]
  simp only [Preserved, decide_eq_true_eq, List.append_nil]

theorem find_mem {file : LogFile} (found : run.find name = some file) : file ∈ run.files ∧ file.name = name := by
  have chosen := List.find?_some (show run.files.find? (fun file => decide (file.name = name)) = some file from found)
  exact ⟨List.mem_of_find?_eq_some found, of_decide_eq_true chosen⟩

/-- A directory has one file under a name. -/
theorem find_of_mem (unique : (run.files.map (·.name)).Nodup) {file : LogFile} (member : file ∈ run.files) :
    run.find file.name = some file := by
  have present : (run.find file.name).isSome = true :=
    List.find?_isSome.mpr ⟨file, member, decide_eq_true rfl⟩
  obtain ⟨other, found⟩ := Option.isSome_iff_exists.mp present
  obtain ⟨inside, same⟩ := find_mem found
  rw [found, List.inj_on_of_nodup_map unique inside member same]

theorem discard_unique (unique : (run.files.map (·.name)).Nodup) :
    ((run.discard platform gone).files.map (·.name)).Nodup :=
  unique.sublist (List.filter_sublist.map _)

theorem preserve_names : (run.preserve platform name).files.map (·.name) =
    ((run.files.map (·.name)).filter (· ≠ failedName name)).map fun other =>
      if other = name then failedName name else other := by
  simp only [preserve, discard, List.map_map, List.filter_map]
  congr 1
  · funext file
    simp only [Function.comp_apply]
    split <;> rfl
  · apply List.filter_congr
    intro file _
    simp

theorem preserve_unique (unique : (run.files.map (·.name)).Nodup) :
    ((run.preserve platform name).files.map (·.name)).Nodup := by
  rw [preserve_names]
  apply List.Nodup.map_on _ (unique.filter _)
  intro first inFirst second inSecond same
  have away := of_decide_eq_true (List.mem_filter.mp inFirst).2
  have apart := of_decide_eq_true (List.mem_filter.mp inSecond).2
  split at same
  next one =>
    split at same
    next other => exact one.trans other.symm
    next => exact absurd same.symm apart
  next =>
    split at same
    next => exact absurd same away
    next => exact same

/-- A normal segment after the rename is one from before, and not the renamed one. -/
theorem of_mem_preserve (segment : endsWith name ".jsonl" = true) {file : LogFile}
    (member : file ∈ (run.preserve platform name).files) (normal : isNormal file.name = true) :
    file ∈ run.files ∧ file.name ≠ name := by
  obtain ⟨before, inside, rfl⟩ := List.mem_map.mp member
  split at normal
  next => rw [failedName_not_normal segment] at normal; cases normal
  next other =>
    rw [if_neg other]
    exact ⟨(List.mem_filter.mp inside).1, other⟩

/-- Under another name the rename finds what was there. -/
theorem find_preserve {other : String} (renamed : other ≠ name) (overwritten : other ≠ failedName name) :
    (run.preserve platform name).find other = run.find other := by
  simp only [find, preserve, discard]
  induction run.files with
  | nil => rfl
  | cons file rest ih =>
    by_cases target : file.name = failedName name
    · have passed : file.name ≠ other := fun same => overwritten (same.symm.trans target)
      simp only [List.filter_cons, target, decide_true, Bool.not_true, Bool.false_eq_true, if_false, ih]
      rw [List.find?_cons_of_neg (by simpa using passed)]
    · simp only [List.filter_cons, target, decide_false, Bool.not_false, if_true, List.map_cons]
      by_cases chosen : file.name = name
      · have passed : file.name ≠ other := fun same => renamed (same.symm.trans chosen)
        rw [if_pos chosen, List.find?_cons_of_neg (by simpa using overwritten.symm),
          List.find?_cons_of_neg (by simpa using passed), ih]
      · rw [if_neg chosen, List.find?_cons, List.find?_cons, ih]

theorem find_discard {other : String} (distinct : other ≠ name) :
    (run.discard platform (·.name = name)).find other = run.find other := by
  simp only [find, discard, List.find?_filter]
  congr 1
  funext file
  by_cases same : file.name = other
  · simp [same, distinct]
  · simp [same]

end Run

/-- A recovery that stands at this point has every normal segment ahead of it, skipped it or
took all its decisions. -/
def Covered (platform : IngestPlatform) (run : Run Store) : Phase → Prop
  | .recovering skipped todo => (∀ name ∈ todo, isSegment name = true) ∧
    ∀ file ∈ run.files, isNormal file.name = true →
      file.name ∈ todo ∨ file.name ∈ skipped ∨ ∀ text ∈ file.texts platform, text ∈ run.accepted
  | .down | .up => True

structure Kept (platform : IngestPlatform) (run : Run Store) : Prop where
  unique : (run.files.map (·.name)).Nodup
  covered : Covered platform run run.phase

theorem Kept.start : Kept platform (Run.machine platform insert initial).start where
  unique := initial.unique
  covered := trivial

theorem collect_segment {unreadable : List String} (member : name ∈ run.collectRecoverySegments unreadable) :
    isSegment name = true := by
  have collected := (List.mem_insertionSort _).mp member
  obtain ⟨file, chosen, rfl⟩ := List.mem_map.mp collected
  have selected := (List.mem_filter.mp chosen).2
  simp only [Bool.and_eq_true] at selected
  exact selected.1

theorem Kept.recover (kept : Kept platform run) (unreadable : List String) :
    Kept platform { run with
      phase := .recovering ((run.files.map (·.name)).filter (· ∈ unreadable)) (run.collectRecoverySegments unreadable)
      passed := [] } where
  unique := kept.unique
  covered := by
    refine ⟨fun name member => collect_segment member, fun file member normal => ?_⟩
    by_cases hidden : file.name ∈ unreadable
    · refine .inr (.inl (List.mem_filter.mpr ⟨List.mem_map_of_mem member, decide_eq_true hidden⟩))
    · refine .inl ((List.mem_insertionSort _).mpr (List.mem_map_of_mem (List.mem_filter.mpr ⟨member, ?_⟩)))
      simp [isSegment, normal, hidden]

/-- The read of a segment, in the recovery's place behind it. -/
def Run.behind (run : Run Store) (name : String) (skipped rest : List String)
    (result : EventIngest.Import Store) : Run Store :=
  { run.imported result with
    passed := run.passed ++ result.accepted.map (name, ·)
    phase := .recovering skipped rest }

/-- What the next segment of a recovery does to the run. -/
theorem reimport_cases {faults : List Bool} {renames removes : Bool}
    (step : run.reimport platform insert faults renames removes = some after) :
    ∃ skipped name rest, run.phase = .recovering skipped (name :: rest) ∧
      ((run.find name = none ∧ after = { run with phase := .recovering skipped rest }) ∨
      ∃ file, run.find name = some file ∧
        ((run.reimportAll platform insert file faults).ok = true ∧
          (after = run.behind name skipped rest (run.reimportAll platform insert file faults) ∨
            isFailed name = true ∧ after = (run.behind name skipped rest
              (run.reimportAll platform insert file faults)).discard platform (·.name = name)) ∨
        (run.reimportAll platform insert file faults).ok = false ∧
          (isFailed name = true ∧ after = run.behind name skipped rest (run.reimportAll platform insert file faults) ∨
          isFailed name = false ∧ renames = true ∧
            after = (run.behind name skipped rest (run.reimportAll platform insert file faults)).preserve platform name ∨
          isFailed name = false ∧ renames = false ∧
            after = { run.behind name skipped rest (run.reimportAll platform insert file faults) with
              phase := .down }))) := by
  unfold Run.reimport at step
  split at step
  · cases step
  · cases step
  · cases step
  next skipped name rest phase =>
    refine ⟨skipped, name, rest, phase, ?_⟩
    split at step
    next missing =>
      cases step
      exact .inl ⟨missing, rfl⟩
    next file found =>
      refine .inr ⟨file, found, ?_⟩
      cases step
      split
      next ok =>
        refine .inl ⟨ok, ?_⟩
        split
        next both => exact .inr ⟨(Bool.and_eq_true_iff.mp both).1, rfl⟩
        next => exact .inl rfl
      next failing =>
        refine .inr ⟨Bool.eq_false_iff.mpr failing, ?_⟩
        split
        next failed => exact .inl ⟨failed, rfl⟩
        next unfailed =>
          have normal := Bool.eq_false_iff.mpr unfailed
          split
          next renamed => exact .inr (.inl ⟨normal, renamed, rfl⟩)
          next stuck => exact .inr (.inr ⟨normal, Bool.eq_false_iff.mpr stuck, rfl⟩)

/-- An import that came to the end accepted what its file holds. -/
theorem texts_accepted {file : LogFile} {faults : List Bool} (ok : (run.reimportAll platform insert file faults).ok = true) :
    (run.reimportAll platform insert file faults).accepted = file.texts platform :=
  EventIngest.accepted_of_ok ok

/-- Behind the head of the recovery the other segments stay covered. -/
theorem Kept.rest {skipped rest : List String} (kept : Kept platform run)
    (phase : run.phase = .recovering skipped (name :: rest)) (accepted : List String) :
    (∀ name ∈ rest, isSegment name = true) ∧
      ∀ file ∈ run.files, isNormal file.name = true → file.name ≠ name →
        file.name ∈ rest ∨ file.name ∈ skipped ∨ ∀ text ∈ file.texts platform, text ∈ run.accepted ++ accepted := by
  have covered := kept.covered
  rw [phase] at covered
  refine ⟨fun name member => covered.1 name (List.mem_cons_of_mem _ member), fun file member normal other => ?_⟩
  rcases covered.2 file member normal with ahead | passed | taken
  · exact .inl ((List.mem_cons.mp ahead).resolve_left other)
  · exact .inr (.inl passed)
  · exact .inr (.inr fun text held => List.mem_append_left _ (taken text held))

theorem Kept.head {skipped rest : List String} (kept : Kept platform run)
    (phase : run.phase = .recovering skipped (name :: rest)) : isSegment name = true := by
  have covered := kept.covered
  rw [phase] at covered
  exact covered.1 name List.mem_cons_self

/-- The file under the name of the head is the one that was read. -/
theorem Kept.same (kept : Kept platform run) {file other : LogFile} (found : run.find name = some file)
    (member : other ∈ run.files) (named : other.name = name) : other = file := by
  have again := Run.find_of_mem kept.unique member
  rw [named, found] at again
  exact (Option.some.inj again).symm

theorem Kept.reimport (kept : Kept platform run) {faults : List Bool} {renames removes : Bool}
    (step : run.reimport platform insert faults renames removes = some after) : Kept platform after := by
  obtain ⟨skipped, name, rest, phase, ⟨missing, rfl⟩ | ⟨file, found, outcome⟩⟩ := reimport_cases step
  · obtain ⟨segments, others⟩ := kept.rest phase []
    refine ⟨kept.unique, segments, fun other member normal => ?_⟩
    have apart : other.name ≠ name := by
      rintro rfl
      rw [Run.find_of_mem kept.unique member] at missing
      cases missing
    simpa using others other member normal apart
  · obtain ⟨segments, others⟩ := kept.rest phase (run.reimportAll platform insert file faults).accepted
    have read : ∀ other ∈ run.files, isNormal other.name = true →
        isFailed name = true ∨ (run.reimportAll platform insert file faults).ok = true →
        other.name ∈ rest ∨ other.name ∈ skipped ∨
          ∀ text ∈ other.texts platform, text ∈ run.accepted ++ (run.reimportAll platform insert file faults).accepted := by
      intro other member normal settled
      by_cases named : other.name = name
      · rcases settled with failed | ok
        · rw [← named, unfailed_of_normal normal] at failed
          cases failed
        · refine .inr (.inr fun text held => List.mem_append_right _ ?_)
          rw [texts_accepted ok, ← kept.same found member named]
          exact held
      · exact others other member normal named
    obtain ⟨ok, rfl | ⟨failed, rfl⟩⟩ | ⟨_, ⟨failed, rfl⟩ | ⟨unfailed, _, rfl⟩ | ⟨_, _, rfl⟩⟩ := outcome
    · exact ⟨kept.unique, segments, fun other member normal => read other member normal (.inr ok)⟩
    · refine ⟨Run.discard_unique kept.unique, segments, fun other member normal => ?_⟩
      exact read other (List.mem_filter.mp member).1 normal (.inr ok)
    · exact ⟨kept.unique, segments, fun other member normal => read other member normal (.inl failed)⟩
    · refine ⟨Run.preserve_unique kept.unique, segments, fun other member normal => ?_⟩
      obtain ⟨before, apart⟩ := Run.of_mem_preserve (endsWith_of_segment (kept.head phase)) member normal
      exact others other before normal apart
    · exact ⟨kept.unique, trivial⟩

theorem Kept.rotate (kept : Kept platform run) {file : LogFile} {faults : List Bool} {renames : Bool}
    (step : run.rotate platform insert file faults renames = some after) : Kept platform after := by
  unfold Run.rotate at step
  split at step
  next allowed =>
    obtain ⟨up, _, fresh⟩ := allowed
    have unique : ((run.files ++ [file]).map (·.name)).Nodup := by
      rw [List.map_append, List.map_singleton]
      exact List.nodup_append.mpr ⟨kept.unique, List.nodup_singleton _, fun first member second last same =>
        fresh ((same.trans (List.mem_singleton.mp last)) ▸ member)⟩
    cases step
    split
    · refine ⟨unique, ?_⟩
      change Covered platform _ run.phase
      rw [up]
      trivial
    · refine ⟨Run.preserve_unique unique, ?_⟩
      change Covered platform _ run.phase
      rw [up]
      trivial
  next => cases step

theorem Kept.step (kept : Kept platform run) {event : Event}
    (taken : run.step platform insert event = some after) : Kept platform after := by
  cases event with
  | recover unreadable =>
    cases taken
    exact kept.recover unreadable
  | reimport faults renames removes => exact kept.reimport taken
  | prune cutoff survivors =>
    simp only [Run.step] at taken
    split at taken
    · cases taken
      exact ⟨@Run.discard_unique platform _ run _ kept.unique, trivial⟩
    · cases taken
  | rotate file faults renames => exact kept.rotate taken

theorem Kept.reimport_exact (kept : Kept platform run) {faults : List Bool} {renames removes : Bool}
    (step : run.reimport platform insert faults renames removes = some after) :
    after.lost = [] ↔ run.lost = [] ∧ run.Meets platform (.reimport faults renames removes) := by
  obtain ⟨skipped, name, rest, phase, ⟨missing, rfl⟩ | ⟨file, found, outcome⟩⟩ := reimport_cases step
  · simp [Run.Meets, phase, missing]
  · have meets : run.Meets platform (.reimport faults renames removes) ↔
        (isFailed name = false → renames = true → (run.reimportAll platform insert file faults).ok = false →
          run.Preserved platform name (run.reimportAll platform insert file faults).accepted) := by
      simp only [Run.Meets, phase, found, Option.mem_some_iff, forall_eq', import_fails, import_accepted]
    rw [meets]
    obtain ⟨ok, rfl | ⟨failed, rfl⟩⟩ | ⟨fails, ⟨failed, rfl⟩ | ⟨unfailed, renamed, rfl⟩ | ⟨_, stuck, rfl⟩⟩ := outcome
    · simp [Run.behind, Run.imported, ok]
    · rw [Run.discard_lost]
      refine and_congr_right fun _ => iff_of_true ?_ ?_
      · intro other member named _ text held
        apply List.mem_append_right
        rw [texts_accepted ok, ← kept.same found member (of_decide_eq_true named)]
        exact held
      · simp [failed]
    · simp [Run.behind, Run.imported, failed]
    · rw [Run.preserve_lost]
      apply and_congr_right
      intro _
      simp [unfailed, renamed, fails, Run.Preserved, Run.behind, Run.imported]
    · simp [Run.behind, Run.imported, stuck]

theorem Kept.prune_exact (kept : Kept platform run) {skipped : List String}
    (phase : run.phase = .recovering skipped []) (cutoff : DateTime) (survivors : List String) :
    (run.discard platform fun file => isReapable file.name && file.modified < cutoff && file.name ∉ survivors).lost = [] ↔
      run.lost = [] ∧ run.Meets platform (.prune cutoff survivors) := by
  have covered := kept.covered
  rw [phase] at covered
  rw [Run.discard_lost]
  apply and_congr_right
  intro _
  simp only [Run.Meets, phase]
  constructor
  · intro all file member _ pruned segment
    exact all file member pruned segment
  · intro met file member pruned segment
    have reapable : isReapable file.name = true := by
      simp only [Bool.and_eq_true] at pruned
      exact pruned.1.1
    rcases covered.2 file member (normal_of_reapable reapable segment) with ahead | passed | taken
    · cases ahead
    · exact met file member passed pruned segment
    · exact taken

theorem Kept.rotate_exact {file : LogFile} {faults : List Bool} {renames : Bool}
    (step : run.rotate platform insert file faults renames = some after) :
    after.lost = [] ↔ run.lost = [] ∧ run.Meets platform (.rotate file faults renames) := by
  unfold Run.rotate at step
  split at step
  next allowed =>
    have segment := endsWith_of_segment (show isSegment file.name = true by simp [isSegment, allowed.2.1])
    have away : file.name ≠ failedName file.name := (failedName_lt segment).ne'
    have meets : run.Meets platform (.rotate file faults renames) ↔
        (renames = true → (run.reimportAll platform insert file faults).ok = false →
          run.Preserved platform file.name (run.reimportAll platform insert file faults).accepted) := by
      simp only [Run.Meets, import_fails, import_accepted]
    rw [meets]
    cases step
    split
    next kept =>
      rcases Bool.or_eq_true_iff.mp kept with ok | stuck
      · simp [Run.imported, ok]
      · have still : renames = false := by simpa using stuck
        simp [Run.imported, still]
    next fails =>
      simp only [Bool.or_eq_true, Bool.not_eq_true', not_or, Bool.not_eq_true, Bool.not_eq_false] at fails
      rw [Run.preserve_lost]
      apply and_congr_right
      intro _
      simp [Run.imported, Run.Preserved, fails.1, fails.2, away, or_imp, forall_and]
  next => cases step

/-- No step but an overwriting rename and the pruning of a skipped segment loses anything. -/
theorem Kept.step_exact (kept : Kept platform run) {event : Event}
    (taken : run.step platform insert event = some after) : after.lost = [] ↔ run.lost = [] ∧ run.Meets platform event := by
  cases event with
  | recover unreadable =>
    cases taken
    exact ⟨fun nothing => ⟨nothing, trivial⟩, fun both => both.1⟩
  | reimport faults renames removes => exact kept.reimport_exact taken
  | prune cutoff survivors =>
    simp only [Run.step] at taken
    split at taken
    next phase =>
      cases taken
      exact kept.prune_exact phase cutoff survivors
    next => cases taken
  | rotate file faults renames => exact Kept.rotate_exact taken

/-- A recovery's event without a failing statement. -/
def Event.Quiet : Event → Prop
  | .reimport faults _ _ => true ∉ faults
  | .recover _ | .prune _ _ | .rotate _ _ _ => False

/-- What a recovery passes of the segment under a name. -/
def Run.reached (platform : IngestPlatform) (run : Run Store) (name : String) : List (String × String) :=
  match run.find name with
  | none => []
  | some file => (file.reachable platform).map (name, ·)

/-- A recovery that ended on a failed rename takes no more steps. -/
theorem down_stays {events : List Event} (down : run.phase = .down) (quiet : ∀ event ∈ events, event.Quiet)
    (ran : (Run.machine platform insert initial).run Machine.free run events = some after) : after.phase = .down := by
  cases events with
  | nil =>
    cases ran
    exact down
  | cons event rest =>
    rw [Machine.run_free_cons] at ran
    obtain ⟨next, first, _⟩ := Option.bind_eq_some_iff.mp ran
    cases event with
    | reimport faults renames removes =>
      obtain ⟨_, _, _, phase, _⟩ := reimport_cases first
      rw [down] at phase
      cases phase
    | recover | prune | rotate => exact (quiet _ List.mem_cons_self).elim

/-- One step of the recovery passes the head and leaves the segments behind it in place. -/
theorem reimport_reached {faults : List Bool} {renames removes : Bool} {skipped todo : List String}
    (phase : run.phase = .recovering skipped todo) (sorted : todo.Pairwise (· < ·))
    (segments : ∀ name ∈ todo, isSegment name = true) (works : true ∉ faults)
    (step : run.reimport platform insert faults renames removes = some after) :
    ∃ name rest, todo = name :: rest ∧ after.passed = run.passed ++ run.reached platform name ∧
      (∀ other ∈ rest, after.find other = run.find other) ∧
      (after.phase = .recovering skipped rest ∨ after.phase = .down) := by
  obtain ⟨same, name, rest, here, outcome⟩ := reimport_cases step
  cases phase.symm.trans here
  have apart : ∀ other ∈ rest, other ≠ name ∧ other ≠ failedName name := by
    intro other member
    have above := (List.pairwise_cons.mp sorted).1 other member
    have below := failedName_lt (endsWith_of_segment (segments name List.mem_cons_self))
    exact ⟨above.ne', (below.trans above).ne'⟩
  refine ⟨name, rest, rfl, ?_⟩
  rcases outcome with ⟨missing, rfl⟩ | ⟨file, found, outcome⟩
  · refine ⟨?_, fun _ _ => rfl, .inl rfl⟩
    rw [Run.reached, missing, List.append_nil]
  · have passed : run.passed ++ (run.reimportAll platform insert file faults).accepted.map (name, ·) =
        run.passed ++ run.reached platform name := by
      rw [Run.reached, found, Run.reimportAll, EventIngest.reimportAll, EventIngest.accepted_eq,
        EventIngest.untilFault_works works]
      rfl
    obtain ⟨_, rfl | ⟨_, rfl⟩⟩ | ⟨_, ⟨_, rfl⟩ | ⟨_, _, rfl⟩ | ⟨_, _, rfl⟩⟩ := outcome
    · exact ⟨passed, fun _ _ => rfl, .inl rfl⟩
    · exact ⟨passed, fun other member => Run.find_discard (apart other member).1, .inl rfl⟩
    · exact ⟨passed, fun _ _ => rfl, .inl rfl⟩
    · exact ⟨passed, fun other member => Run.find_preserve (apart other member).1 (apart other member).2, .inl rfl⟩
    · exact ⟨passed, fun _ _ => rfl, .inr rfl⟩

/-- A recovery without a failing statement passes the reachable decisions of what it collected. -/
theorem recovery_reached {events : List Event} {skipped todo : List String}
    (phase : run.phase = .recovering skipped todo) (sorted : todo.Pairwise (· < ·))
    (segments : ∀ name ∈ todo, isSegment name = true) (quiet : ∀ event ∈ events, event.Quiet)
    (ran : (Run.machine platform insert initial).run Machine.free run events = some after)
    (ended : ∃ skipped, after.phase = .recovering skipped []) :
    after.passed = run.passed ++ todo.flatMap (run.reached platform) := by
  induction events generalizing run todo with
  | nil =>
    cases ran
    obtain ⟨_, done⟩ := ended
    cases phase.symm.trans done
    rw [List.flatMap_nil, List.append_nil]
  | cons event later ih =>
    have calm : ∀ event ∈ later, event.Quiet := fun event member => quiet event (List.mem_cons_of_mem _ member)
    rw [Machine.run_free_cons] at ran
    obtain ⟨next, first, onward⟩ := Option.bind_eq_some_iff.mp ran
    cases event with
    | reimport faults renames removes =>
      obtain ⟨name, rest, rfl, passed, others, ahead | down⟩ :=
        reimport_reached phase sorted segments (quiet _ List.mem_cons_self) first
      · have left := ih ahead (List.pairwise_cons.mp sorted).2
          (fun name member => segments name (List.mem_cons_of_mem _ member)) calm onward
        have same : rest.flatMap (next.reached platform) = rest.flatMap (run.reached platform) := by
          apply List.flatMap_congr
          intro other member
          rw [Run.reached, Run.reached, others other member]
        rw [left, passed, same, List.flatMap_cons, List.append_assoc]
      · obtain ⟨_, done⟩ := ended
        rw [down_stays down calm onward] at done
        cases done
    | recover | prune | rotate => exact (quiet _ List.mem_cons_self).elim

theorem collect_sorted (unique : (run.files.map (·.name)).Nodup) (unreadable : List String) :
    (run.collectRecoverySegments unreadable).Pairwise (· < ·) := by
  have ordered := List.pairwise_insertionSort (· ≤ ·)
    ((run.files.filter fun file => isSegment file.name && file.name ∉ unreadable).map (·.name))
  have distinct := (List.perm_insertionSort (· ≤ ·) ((run.files.filter fun file =>
    isSegment file.name && file.name ∉ unreadable).map (·.name))).nodup_iff.mpr
      (unique.sublist (List.filter_sublist.map _))
  exact List.Pairwise.imp₂ (fun _ _ below other => lt_of_le_of_ne below other) ordered distinct

/-- Every decision line of every segment is passed exactly if the segments that hold any can
be read, and hold none but behind lines that are UTF-8. -/
theorem recovery_complete_iff (unique : (run.files.map (·.name)).Nodup) {unreadable : List String}
    {events : List Event} (quiet : ∀ event ∈ events, event.Quiet)
    (ran : (Run.machine platform insert initial).run Machine.free run (.recover unreadable :: events) = some after)
    (ended : ∃ skipped, after.phase = .recovering skipped []) :
    (∀ file ∈ run.files, isSegment file.name = true → ∀ text ∈ file.texts platform,
      (file.name, text) ∈ after.passed) ↔
    ∀ file ∈ run.files, isSegment file.name = true → ∀ text ∈ file.texts platform,
      file.name ∉ unreadable ∧ text ∈ file.reachable platform := by
  rw [Machine.run_free_cons] at ran
  obtain ⟨next, first, onward⟩ := Option.bind_eq_some_iff.mp ran
  cases first
  have passed := recovery_reached rfl (collect_sorted unique unreadable) (fun _ => collect_segment) quiet onward ended
  have member : ∀ file ∈ run.files, isSegment file.name = true → ∀ text,
      ((file.name, text) ∈ after.passed ↔ file.name ∉ unreadable ∧ text ∈ file.reachable platform) := by
    intro file inside segment text
    have found := Run.find_of_mem unique inside
    rw [passed]
    simp only [List.nil_append, List.mem_flatMap, Run.collectRecoverySegments, List.mem_insertionSort, List.mem_map,
      List.mem_filter, Bool.and_eq_true, decide_eq_true_eq]
    constructor
    · rintro ⟨name, ⟨other, ⟨_, _, readable⟩, named⟩, reached⟩
      unfold Run.reached at reached
      split at reached
      next => cases reached
      next again here =>
        obtain ⟨held, present, same⟩ := List.mem_map.mp reached
        obtain ⟨rfl, rfl⟩ := Prod.mk.inj same
        cases found.symm.trans here
        exact ⟨named ▸ readable, present⟩
    · rintro ⟨readable, present⟩
      refine ⟨file.name, ⟨file, ⟨inside, segment, readable⟩, rfl⟩, ?_⟩
      change (file.name, text) ∈ match run.find file.name with
        | none => []
        | some file' => (file'.reachable platform).map (file.name, ·)
      rw [found]
      exact List.mem_map_of_mem present
  exact forall₂_congr fun file inside => forall_congr' fun segment => forall₂_congr fun text _ =>
    member file inside segment text

/-- A run loses a decision with its segment exactly if a failing import was renamed over a
segment that held one, or a segment that the recovery had skipped was pruned. From any state
that a run reaches, a recovery without a failing statement passes every decision line exactly
if none of them is in an unreadable entry or behind a line that is no UTF-8. -/
theorem segments_recovered_iff {events : List Event}
    (taken : (Run.machine platform insert initial).run Machine.free (Run.machine platform insert initial).start events = some after) :
    (after.lost = [] ↔ (Run.machine platform insert initial).run (Run.Meets platform)
      (Run.machine platform insert initial).start events = some after) ∧
    ∀ unreadable later ended, (∀ event ∈ later, event.Quiet) →
      (Run.machine platform insert initial).run Machine.free after (.recover unreadable :: later) = some ended →
      (∃ skipped, ended.phase = .recovering skipped []) →
      ((∀ file ∈ after.files, isSegment file.name = true → ∀ text ∈ file.texts platform,
          (file.name, text) ∈ ended.passed) ↔
        ∀ file ∈ after.files, isSegment file.name = true → ∀ text ∈ file.texts platform,
          file.name ∉ unreadable ∧ text ∈ file.reachable platform) := by
  have kept : Kept platform after :=
    Machine.run_preserves (Kept platform) (fun _ _ _ kept _ taken => kept.step taken) Kept.start taken
  refine ⟨?_, fun unreadable later ended quiet ran complete => ?_⟩
  · rw [@Machine.run_good_iff _ _ (Run.machine platform insert initial) (Run.Meets platform) _ (Kept platform)
      (fun run => run.lost = []) (fun _ _ _ kept taken => kept.step taken)
      (fun _ _ _ kept taken => kept.step_exact taken) _ _ _ Kept.start taken]
    exact ⟨fun both => both.2, fun guarded => ⟨rfl, guarded⟩⟩
  · exact recovery_complete_iff kept.unique quiet ran complete

private def oneSegment (content : Bytes) : Run.Start (List LogRow) where
  files := [⟨"events-1.jsonl", content, 0⟩]
  store := []
  unique := List.nodup_singleton _

private def bothSegments : Run.Start (List LogRow) where
  files := [⟨"events-1.jsonl", EventIngest.bareLine, 0⟩, ⟨"events-1.failed.jsonl", EventIngest.bareLine, 0⟩]
  store := []
  unique := by decide

private def recoverAndPrune : List Event :=
  [.recover [], .reimport [] true true, .prune 1 []]

theorem segments_recovered_iff_pruned :
    (((Run.machine EventIngest.barePlatform EventIngest.insertRow (oneSegment EventIngest.bareLine)).run Machine.free
      (Run.machine EventIngest.barePlatform EventIngest.insertRow (oneSegment EventIngest.bareLine)).start recoverAndPrune).get (by decide +kernel)).lost = [] :=
  (segments_recovered_iff (Option.some_get _).symm).1.mpr (by decide +kernel)

/-- Both statements fail, and the normal segment takes the failed one's place. Without a
failing statement, the line behind a byte that is no UTF-8 is not passed. -/
theorem failed_segment_overwritten :
    (∃ platform initial events after,
      (Run.machine platform EventIngest.insertRow initial).run Machine.free (Run.machine platform EventIngest.insertRow initial).start events = some after ∧
        after.lost ≠ []) ∧
    ∃ platform initial events after, (∀ event ∈ events, event.Quiet) ∧
      (Run.machine platform EventIngest.insertRow initial).run Machine.free (Run.machine platform EventIngest.insertRow initial).start
        (.recover [] :: events) = some after ∧ (∃ skipped, after.phase = .recovering skipped []) ∧
      ∃ file ∈ initial.files, isSegment file.name = true ∧ ∃ text ∈ file.texts platform,
        (file.name, text) ∉ after.passed := by
  refine ⟨⟨EventIngest.barePlatform, bothSegments, [.recover [], .reimport [true] true true, .reimport [true] true true],
    _, (Option.some_get (by decide +kernel)).symm, by decide +kernel⟩,
    EventIngest.barePlatform, oneSegment (255 :: 10 :: EventIngest.bareLine), [.reimport [] true true], _, ?_,
    (Option.some_get (by decide +kernel)).symm, ⟨[], by decide +kernel⟩, _, List.mem_singleton_self _,
    by decide +kernel, EventIngest.bareEvent, by decide +kernel, by decide +kernel⟩
  intro event member
  rw [List.mem_singleton.mp member]
  exact List.not_mem_nil

end Wisphive.SegmentRecovery
