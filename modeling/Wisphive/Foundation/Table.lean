import Mathlib.Data.List.Basic
import Mathlib.Data.List.Pairwise

/-! Tables under uniqueness constraints. Rows that may not coexist conflict, and an
insert that meets a conflict is ignored. -/

namespace Foundation
namespace Table
variable {Row : Type*}

/-- `INSERT OR IGNORE`, and whether a row was inserted. -/
def insertOrIgnore (conflicts : Row → Row → Bool) (rows : List Row) (row : Row) : Bool × List Row :=
  if rows.any (conflicts row) then (false, rows) else (true, rows ++ [row])

/-- A row that meets no conflict. -/
def Clear (conflicts : Row → Row → Bool) (rows : List Row) (row : Row) : Prop :=
  ∀ other ∈ rows, conflicts row other = false

instance (conflicts : Row → Row → Bool) (rows : List Row) (row : Row) : Decidable (Clear conflicts rows row) :=
  inferInstanceAs (Decidable (∀ other ∈ rows, conflicts row other = false))

/-- `UPDATE`, and how many rows it changed. -/
def update (rows : List Row) (selected : Row → Bool) (change : Row → Row) : Nat × List Row :=
  (rows.countP selected, rows.map fun row => if selected row then change row else row)

/-- `DELETE`, and how many rows it removed. -/
def delete (rows : List Row) (selected : Row → Bool) : Nat × List Row :=
  (rows.countP selected, rows.filter fun row => !selected row)

variable {conflicts : Row → Row → Bool} {rows : List Row} {row : Row}

/-- Lookup by a key that an update keeps. -/
theorem find_update {Key : Type*} [DecidableEq Key] {key : Row → Key} {selected : Row → Bool} {change : Row → Row}
    (keeps : ∀ row, key (change row) = key row) (wanted : Key) :
    (update rows selected change).2.find? (key · = wanted) =
      (rows.find? (key · = wanted)).map fun row => if selected row then change row else row := by
  have same : ((fun row => decide (key row = wanted)) ∘ fun row => if selected row then change row else row) =
      fun row => decide (key row = wanted) := by
    funext row
    simp only [Function.comp_apply]
    split
    · rw [keeps]
    · rfl
  rw [update, List.find?_map, same]

theorem find_append {Key : Type*} [DecidableEq Key] {key : Row → Key} {wanted : Key} :
    (rows ++ [row]).find? (key · = wanted) =
      (rows.find? (key · = wanted)).or (if key row = wanted then some row else none) := by
  rw [List.find?_append]
  congr 1
  simp only [List.find?_cons, List.find?_nil]
  split <;> simp_all

/-- An update that keeps the selection leaves the other rows alone. -/
theorem filter_update {selected : Row → Bool} {change : Row → Row} (keeps : ∀ row, selected (change row) = selected row) :
    (update rows selected change).2.filter (!selected ·) = rows.filter (!selected ·) := by
  induction rows with
  | nil => rfl
  | cons first rest ih =>
    rw [update] at ih ⊢
    cases chosen : selected first with
    | true => simpa only [List.map_cons, chosen, if_true, List.filter_cons, keeps, Bool.not_true, Bool.false_eq_true,
        if_false] using ih
    | false =>
      simpa only [List.map_cons, chosen, Bool.false_eq_true, if_false, List.filter_cons, Bool.not_false, if_true,
        List.cons.injEq, true_and] using ih

/-- A second update of the same rows follows the first. -/
theorem update_update {selected : Row → Bool} {first second : Row → Row}
    (keeps : ∀ row, selected (first row) = selected row) :
    (update (update rows selected first).2 selected second).2 = (update rows selected (second ∘ first)).2 := by
  simp only [update, List.map_map]
  apply List.map_congr_left
  intro row _
  cases chosen : selected row with
  | true => simp only [Function.comp_apply, chosen, if_true, keeps]
  | false => simp only [Function.comp_apply, chosen, Bool.false_eq_true, if_false]

theorem any_update {selected : Row → Bool} {change : Row → Row} (keeps : ∀ row, selected (change row) = selected row) :
    (update rows selected change).2.any selected = rows.any selected := by
  rw [update, List.any_map]
  congr 1
  funext row
  simp only [Function.comp_apply]
  split
  · exact keeps row
  · rfl

theorem update_pos {selected : Row → Bool} {change : Row → Row} :
    decide ((update rows selected change).1 > 0) = rows.any selected := by
  rw [Bool.eq_iff_iff, decide_eq_true_iff, List.any_eq_true]
  exact List.countP_pos_iff

theorem filter_insertOrIgnore {keeps : Row → Bool} (hidden : keeps row = false) :
    (insertOrIgnore conflicts rows row).2.filter keeps = rows.filter keeps := by
  unfold insertOrIgnore
  split
  · rfl
  · rw [List.filter_append, List.filter_cons_of_neg (by simp [hidden]), List.filter_nil, List.append_nil]

theorem insertOrIgnore_clear (clear : Clear conflicts rows row) :
    insertOrIgnore conflicts rows row = (true, rows ++ [row]) := by
  have free : rows.any (conflicts row) = false :=
    List.any_eq_false.mpr fun other member => by simp [clear other member]
  simp only [insertOrIgnore, free, Bool.false_eq_true, if_false]

theorem insertOrIgnore_conflict (conflict : ¬ Clear conflicts rows row) :
    insertOrIgnore conflicts rows row = (false, rows) := by
  have taken : rows.any (conflicts row) = true := by
    refine List.any_eq_true.mpr ?_
    simpa only [Clear, not_forall, Bool.not_eq_false, exists_prop] using conflict
  simp only [insertOrIgnore, taken, if_true]

/-- An insert keeps every earlier row. -/
theorem mem_insertOrIgnore {other : Row} (member : other ∈ rows) :
    other ∈ (insertOrIgnore conflicts rows row).2 := by
  unfold insertOrIgnore
  split
  · exact member
  · exact List.mem_append_left _ member

theorem inserted_mem (inserted : (insertOrIgnore conflicts rows row).1 = true) :
    row ∈ (insertOrIgnore conflicts rows row).2 := by
  by_cases clear : Clear conflicts rows row
  · rw [insertOrIgnore_clear clear]
    exact List.mem_append_right _ (List.mem_singleton.mpr rfl)
  · rw [insertOrIgnore_conflict clear] at inserted
    cases inserted

/-- A row found after an insert was there before or is the inserted one. -/
theorem of_mem_insertOrIgnore {other : Row} (member : other ∈ (insertOrIgnore conflicts rows row).2) :
    other ∈ rows ∨ other = row ∧ Clear conflicts rows row := by
  by_cases clear : Clear conflicts rows row
  · rw [insertOrIgnore_clear clear] at member
    rcases List.mem_append.mp member with earlier | latest
    · exact .inl earlier
    · exact .inr ⟨List.mem_singleton.mp latest, clear⟩
  · rw [insertOrIgnore_conflict clear] at member
    exact .inl member

/-- Insert rows one after the other. -/
def insertAll (conflicts : Row → Row → Bool) (rows : List Row) : List Row → List Row
  | [] => rows
  | row :: rest => insertAll conflicts (insertOrIgnore conflicts rows row).2 rest

/-- Each row meets no conflict when its turn comes. -/
def ClearAll (conflicts : Row → Row → Bool) (rows : List Row) : List Row → Prop
  | [] => True
  | row :: rest => Clear conflicts rows row ∧ ClearAll conflicts (rows ++ [row]) rest

instance decidableClearAll (conflicts : Row → Row → Bool) (rows fresh : List Row) :
    Decidable (ClearAll conflicts rows fresh) :=
  match fresh with
  | [] => .isTrue trivial
  | row :: rest =>
    have := decidableClearAll conflicts (rows ++ [row]) rest
    inferInstanceAs (Decidable (Clear conflicts rows row ∧ ClearAll conflicts (rows ++ [row]) rest))

variable {fresh : List Row}

theorem insertAll_clear (clear : ClearAll conflicts rows fresh) :
    insertAll conflicts rows fresh = rows ++ fresh := by
  induction fresh generalizing rows with
  | nil => exact (List.append_nil rows).symm
  | cons row rest ih =>
    rw [insertAll, insertOrIgnore_clear clear.1, ih clear.2, List.append_assoc, List.singleton_append]

theorem insertAll_length : (insertAll conflicts rows fresh).length ≤ rows.length + fresh.length := by
  induction fresh generalizing rows with
  | nil => exact Nat.le_refl _
  | cons row rest ih =>
    apply Nat.le_trans ih
    by_cases clear : Clear conflicts rows row
    · simp only [insertOrIgnore_clear clear, List.length_append, List.length_cons, List.length_nil]
      omega
    · simp only [insertOrIgnore_conflict clear, List.length_cons]
      omega

/-- Nothing is lost exactly when no row meets a conflict. -/
theorem clearAll_of_length (full : rows.length + fresh.length ≤ (insertAll conflicts rows fresh).length) :
    ClearAll conflicts rows fresh := by
  induction fresh generalizing rows with
  | nil => trivial
  | cons row rest ih =>
    rw [insertAll, List.length_cons] at full
    by_cases clear : Clear conflicts rows row
    · simp only [insertOrIgnore_clear clear] at full
      refine ⟨clear, ih ?_⟩
      rw [List.length_append, List.length_singleton]
      omega
    · simp only [insertOrIgnore_conflict clear] at full
      have bound : (insertAll conflicts rows rest).length ≤ rows.length + rest.length := insertAll_length
      omega

theorem mem_insertAll {other : Row} (member : other ∈ rows) : other ∈ insertAll conflicts rows fresh := by
  induction fresh generalizing rows with
  | nil => exact member
  | cons row rest ih => exact ih (mem_insertOrIgnore member)

theorem of_mem_insertAll {other : Row} (member : other ∈ insertAll conflicts rows fresh) :
    other ∈ rows ∨ other ∈ fresh := by
  induction fresh generalizing rows with
  | nil => exact .inl member
  | cons row rest ih =>
    rcases ih member with earlier | later
    · rcases of_mem_insertOrIgnore earlier with old | ⟨rfl, _⟩
      · exact .inl old
      · exact .inr (List.mem_cons_self ..)
    · exact .inr (List.mem_cons_of_mem _ later)

/-- A row of the insert is there afterwards, or a row that it conflicts with. -/
theorem insertAll_covers (member : row ∈ fresh) :
    row ∈ insertAll conflicts rows fresh ∨ ∃ other ∈ insertAll conflicts rows fresh, conflicts row other = true := by
  induction fresh generalizing rows with
  | nil => cases member
  | cons first rest ih =>
    rcases List.mem_cons.mp member with rfl | later
    · rw [insertAll]
      by_cases clear : Clear conflicts rows row
      · apply Or.inl
        apply mem_insertAll
        rw [insertOrIgnore_clear clear]
        exact List.mem_append_right _ (List.mem_singleton.mpr rfl)
      · rw [insertOrIgnore_conflict clear]
        simp only [Clear, not_forall, Bool.not_eq_false] at clear
        obtain ⟨other, present, conflict⟩ := clear
        exact .inr ⟨other, mem_insertAll present, conflict⟩
    · exact ih later

/-- A row that conflicts with itself is refused a second time. -/
theorem not_clear_inserted (reflexive : conflicts row row = true) :
    ¬ Clear conflicts (insertOrIgnore conflicts rows row).2 row := by
  intro again
  by_cases clear : Clear conflicts rows row
  · rw [insertOrIgnore_clear clear] at again
    have refused := again row (List.mem_append_right _ (List.mem_singleton.mpr rfl))
    rw [reflexive] at refused
    cases refused
  · rw [insertOrIgnore_conflict clear] at again
    exact clear again

/-- A row that was refused stays refused. -/
theorem not_clear_grows (refused : ¬ Clear conflicts rows row) {later : List Row}
    (kept : ∀ other ∈ rows, other ∈ later) : ¬ Clear conflicts later row :=
  fun clear => refused fun other member => clear other (kept other member)

/-- A row is refused as well once the rows that it conflicts with are changed elsewhere. -/
theorem not_clear_update {selected : Row → Bool} {change : Row → Row} (refused : ¬ Clear conflicts rows row)
    (keeps : ∀ other, conflicts row (change other) = conflicts row other) :
    ¬ Clear conflicts (update rows selected change).2 row := by
  intro clear
  apply refused
  intro other member
  have met := clear _ (List.mem_map_of_mem member)
  split at met
  · rwa [keeps] at met
  · exact met

/-- No two rows conflict. -/
def Distinct (conflicts : Row → Row → Bool) (rows : List Row) : Prop :=
  rows.Pairwise fun row other => conflicts row other = false

theorem Distinct.insertOrIgnore (distinct : Distinct conflicts rows)
    (symmetric : ∀ row other, conflicts row other = conflicts other row) :
    Distinct conflicts (insertOrIgnore conflicts rows row).2 := by
  by_cases clear : Clear conflicts rows row
  · rw [insertOrIgnore_clear clear]
    apply List.pairwise_append.mpr
    refine ⟨distinct, List.pairwise_singleton .., fun other member inserted same => ?_⟩
    rw [List.mem_singleton.mp same, symmetric]
    exact clear other member
  · rw [insertOrIgnore_conflict clear]
    exact distinct

theorem Distinct.eq_of_conflict (distinct : Distinct conflicts rows)
    (symmetric : ∀ row other, conflicts row other = conflicts other row) {other : Row} (member : row ∈ rows)
    (present : other ∈ rows) (conflict : conflicts row other = true) : row = other := by
  by_contra differ
  have : Std.Symm fun row other => conflicts row other = false :=
    ⟨fun first second free => by rw [symmetric, free]⟩
  rw [List.Pairwise.forall distinct member present differ] at conflict
  cases conflict

/-- Rows that all conflict with each other are there once at most. -/
theorem Distinct.filter_eq (distinct : Distinct conflicts rows) {selected : Row → Bool}
    (meet : ∀ first second, selected first = true → selected second = true → conflicts first second = true)
    (member : row ∈ rows) (chosen : selected row = true) : rows.filter selected = [row] := by
  have apart : Distinct conflicts (rows.filter selected) := List.Pairwise.sublist List.filter_sublist distinct
  have inside : row ∈ rows.filter selected := List.mem_filter.mpr ⟨member, chosen⟩
  have every : ∀ other ∈ rows.filter selected, selected other = true := fun _ present => (List.mem_filter.mp present).2
  match found : rows.filter selected with
  | [] => rw [found] at inside; cases inside
  | [only] =>
    rw [found] at inside
    rw [List.mem_singleton.mp inside]
  | first :: second :: rest =>
    rw [found] at apart every
    have free := (List.pairwise_cons.mp apart).1 second (List.mem_cons_self ..)
    rw [meet first second (every first (List.mem_cons_self ..)) (every second (by simp))] at free
    cases free

end Table
end Foundation
