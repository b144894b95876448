import Wisphive.Worktree

/-! To whom a changed file is attributed. The calls of the edit class come before the `Bash`
calls, and the newest of a class comes first. The scan takes the newest of both together. -/

namespace Wisphive.Worktree
open Foundation

variable {project : PathBuf} {change : WorktreeChange} {touch : FileTouch} {touches : List FileTouch}

/-- The newest edit-class call that names the file, and without one the newest `Bash` call
that mentions it. -/
def prioritized (project : PathBuf) (touches : List FileTouch) (change : WorktreeChange) : WorktreeChange :=
  ((touches.find? (edits project change)).or (touches.find? (mentions project change))).elim change (attributed change)

/-- A `Bash` call that mentions the file is newer than every edit-class call that names it,
and there is one. -/
structure Shadows (project : PathBuf) (change : WorktreeChange) (newer : List FileTouch) (bash : FileTouch)
    (older : List FileTouch) : Prop where
  mentions : mentions project change bash = true
  first : ∀ touch ∈ newer, edits project change touch = false
  edited : ∃ touch ∈ older, edits project change touch = true

def Shadowed (project : PathBuf) (touches : List FileTouch) (change : WorktreeChange) : Prop :=
  ∃ newer bash older, touches = newer ++ bash :: older ∧ Shadows project change newer bash older

theorem edits_tool (edited : edits project change touch = true) : touch.toolName ∈ editTools :=
  List.contains_iff_mem.mp (Bool.and_eq_true_iff.mp edited).1

theorem mentions_tool (mentioned : mentions project change touch = true) : touch.toolName = "Bash" :=
  of_decide_eq_true (Bool.and_eq_true_iff.mp mentioned).1

/-- No call is of both classes. -/
theorem edits_unmentioned (edited : edits project change touch = true) : mentions project change touch = false := by
  cases mentioned : mentions project change touch with
  | false => rfl
  | true =>
    have tool := edits_tool edited
    rw [mentions_tool mentioned] at tool
    exact absurd tool (by decide)

theorem attributed_ne {bash : FileTouch} (mentioned : mentions project change bash = true)
    (edited : edits project change touch = true) : attributed change bash ≠ attributed change touch := by
  intro same
  have tool : bash.toolName = touch.toolName := Option.some.inj (congrArg (·.attributedTool) same)
  have listed := edits_tool edited
  rw [← tool, mentions_tool mentioned] at listed
  exact absurd listed (by decide)

theorem attributeChange_cons_edit (edited : edits project change touch = true) :
    attributeChange project (touch :: touches) change = attributed change touch := by
  rw [attributeChange, List.find?_cons_of_pos (by rw [edited]; rfl)]

theorem attributeChange_cons_other (unedited : edits project change touch = false)
    (unmentioned : mentions project change touch = false) :
    attributeChange project (touch :: touches) change = attributeChange project touches change := by
  rw [attributeChange, List.find?_cons_of_neg (by simp [unedited, unmentioned]), attributeChange]

theorem shadowed_cons_edit (edited : edits project change touch = true) :
    ¬ Shadowed project (touch :: touches) change := by
  rintro ⟨newer, bash, older, same, shadows⟩
  cases newer with
  | nil =>
    obtain ⟨rfl, rfl⟩ := List.cons.inj same
    exact absurd shadows.mentions (by rw [edits_unmentioned edited]; exact Bool.false_ne_true)
  | cons head newer =>
    obtain ⟨rfl, _⟩ := List.cons.inj same
    exact absurd (shadows.first touch (List.mem_cons_self ..)) (by simp [edited])

theorem shadowed_cons_other (unedited : edits project change touch = false)
    (unmentioned : mentions project change touch = false) :
    Shadowed project (touch :: touches) change ↔ Shadowed project touches change := by
  constructor
  · rintro ⟨newer, bash, older, same, shadows⟩
    cases newer with
    | nil =>
      obtain ⟨rfl, rfl⟩ := List.cons.inj same
      exact absurd shadows.mentions (by rw [unmentioned]; exact Bool.false_ne_true)
    | cons head newer =>
      obtain ⟨rfl, rfl⟩ := List.cons.inj same
      exact ⟨newer, bash, older, rfl, shadows.mentions, fun other member =>
        shadows.first other (List.mem_cons_of_mem _ member), shadows.edited⟩
  · rintro ⟨newer, bash, older, rfl, shadows⟩
    refine ⟨touch :: newer, bash, older, rfl, shadows.mentions, fun other member => ?_, shadows.edited⟩
    rcases List.mem_cons.mp member with rfl | later
    · exact unedited
    · exact shadows.first other later

/-- A file gets the call of the highest priority unless that call is shadowed. -/
theorem attributeChange_iff :
    attributeChange project touches change = prioritized project touches change ↔
      ¬ Shadowed project touches change := by
  induction touches with
  | nil =>
    refine iff_of_true rfl ?_
    rintro ⟨newer, bash, older, same, _⟩
    cases newer <;> cases same
  | cons touch rest ih =>
    cases edited : edits project change touch with
    | true =>
      refine iff_of_true ?_ (shadowed_cons_edit edited)
      rw [attributeChange_cons_edit edited, prioritized, List.find?_cons_of_pos edited, Option.some_or, Option.elim_some]
    | false =>
      cases mentioned : mentions project change touch with
      | false =>
        rw [attributeChange_cons_other edited mentioned, shadowed_cons_other edited mentioned, ← ih, prioritized,
          prioritized, List.find?_cons_of_neg (by simp [edited]), List.find?_cons_of_neg (by simp [mentioned])]
      | true =>
        have taken : attributeChange project (touch :: rest) change = attributed change touch := by
          rw [attributeChange, List.find?_cons_of_pos (by rw [mentioned, Bool.or_true])]
        rw [taken, prioritized, List.find?_cons_of_neg (by simp [edited]), List.find?_cons_of_pos mentioned]
        cases found : rest.find? (edits project change) with
        | none =>
          refine iff_of_true rfl ?_
          rintro ⟨newer, bash, older, same, shadows⟩
          obtain ⟨other, member, named⟩ := shadows.edited
          have inside : other ∈ rest := by
            cases newer with
            | nil => exact (List.cons.inj same).2 ▸ member
            | cons head newer =>
              rw [(List.cons.inj same).2]
              exact List.mem_append_right _ (List.mem_cons_of_mem _ member)
          exact absurd named (List.find?_eq_none.mp found other inside)
        | some other =>
          have named := List.find?_some found
          refine iff_of_false (attributed_ne mentioned named) (not_not.mpr ?_)
          exact ⟨[], touch, rest, rfl, mentioned, fun _ member => absurd member List.not_mem_nil, other,
            List.mem_of_find?_eq_some found, named⟩

/-- The changes are attributed by priority exactly when none of them is shadowed. -/
theorem attribution_prioritized_iff (project : PathBuf) (changes : List WorktreeChange) (touches : List FileTouch) :
    attributeChanges project changes touches = changes.map (prioritized project touches) ↔
      ∀ change ∈ changes, ¬ Shadowed project touches change := by
  rw [attributeChanges, List.map_inj_left]
  exact forall₂_congr fun change _ => attributeChange_iff

/-- One agent edits a file, and another one reads it later on. -/
private def readLater : List FileTouch :=
  [{ agentId := "reader", toolName := "Bash", toolInput := .object [("command", .string "cat src/lib.rs")] },
    { agentId := "writer", toolName := "Edit", toolInput := .object [("file_path", .string "/work/src/lib.rs")] }]

/-- The file is attributed to the reader. -/
theorem reader_attributed :
    attributeChanges ⟨"/work"⟩ [{ path := "src/lib.rs", status := ".M" }] readLater ≠
      [{ path := "src/lib.rs", status := ".M" }].map (prioritized ⟨"/work"⟩ readLater) := by
  decide +kernel

end Wisphive.Worktree
