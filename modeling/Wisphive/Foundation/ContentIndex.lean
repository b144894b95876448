import Mathlib.Data.List.Perm.Basic
import Mathlib.Data.List.Nodup

/-! A table whose rows have numbers, and an index over a part of each row that triggers keep.
The index knows a row by its number only. -/

namespace Foundation

/-- Numbered rows, and for each indexed row its number and what was indexed. -/
structure Indexed (Row Content : Type*) where
  rows : List (Nat × Row)
  index : List (Nat × Content)
  deriving DecidableEq, Repr

namespace Indexed
variable {Row Content : Type*} (content : Row → Content)

def entry (row : Nat × Row) : Nat × Content :=
  (row.1, content row.2)

/-- The index is made from the table. -/
def rebuild (rows : List (Nat × Row)) : Indexed Row Content where
  rows
  index := rows.map (entry content)

/-- One more than the largest number of the table. -/
def nextNumber (rows : List (Nat × Row)) : Nat :=
  (rows.map (·.1)).foldr max 0 + 1

/-- The row as it is after an update of the selected ones. -/
def updated (selected : Row → Bool) (change : Row → Row) (row : Nat × Row) : Nat × Row :=
  if selected row.2 then (row.1, change row.2) else row

def insert (table : Indexed Row Content) (row : Row) : Indexed Row Content :=
  let numbered := (nextNumber table.rows, row)
  { rows := table.rows ++ [numbered], index := table.index ++ [entry content numbered] }

/-- An update for which no trigger fires. -/
def updateOther (table : Indexed Row Content) (selected : Row → Bool) (change : Row → Row) : Indexed Row Content :=
  { table with rows := table.rows.map (updated selected change) }

/-- New numbers for all rows. The index is left as it is. -/
def renumber (table : Indexed Row Content) (numbers : List Nat) : Option (Indexed Row Content) :=
  if numbers.length = table.rows.length ∧ numbers.Nodup then
    some { table with rows := numbers.zip (table.rows.map (·.2)) }
  else none

section Triggers
variable [DecidableEq Content]

/-- The trigger of a deleted row names what was indexed. -/
def forget (index : List (Nat × Content)) (row : Nat × Row) : List (Nat × Content) :=
  index.erase (entry content row)

/-- The trigger of an updated row. -/
def replace (change : Row → Row) (index : List (Nat × Content)) (row : Nat × Row) : List (Nat × Content) :=
  forget content index row ++ [entry content (row.1, change row.2)]

def update (table : Indexed Row Content) (selected : Row → Bool) (change : Row → Row) : Indexed Row Content where
  rows := table.rows.map (updated selected change)
  index := (table.rows.filter (selected ·.2)).foldl (replace content change) table.index

def delete (table : Indexed Row Content) (selected : Row → Bool) : Indexed Row Content where
  rows := table.rows.filter (!selected ·.2)
  index := (table.rows.filter (selected ·.2)).foldl (forget content) table.index

end Triggers

/-- No number stands twice, and the index has one entry for each row. -/
structure InSync (table : Indexed Row Content) : Prop where
  numbers : (table.rows.map (·.1)).Nodup
  index : table.index.Perm (table.rows.map (entry content))

variable {content} {table : Indexed Row Content} {selected : Row → Bool} {change : Row → Row}

theorem rebuild_inSync {rows : List (Nat × Row)} (numbers : (rows.map (·.1)).Nodup) :
    InSync content (rebuild content rows) :=
  ⟨numbers, List.Perm.refl _⟩

theorem updated_number (row : Nat × Row) : (updated selected change row).1 = row.1 := by
  unfold updated
  split <;> rfl

theorem updated_numbers (rows : List (Nat × Row)) :
    (rows.map (updated selected change)).map (·.1) = rows.map (·.1) := by
  rw [List.map_map]
  exact List.map_congr_left fun row _ => updated_number row

theorem lt_nextNumber {rows : List (Nat × Row)} {row : Nat × Row} (member : row ∈ rows) :
    row.1 < nextNumber rows := by
  unfold nextNumber
  induction rows with
  | nil => cases member
  | cons first rest ih =>
    rw [List.map_cons, List.foldr_cons]
    rcases List.mem_cons.mp member with rfl | later
    · omega
    · have below := ih later
      omega

theorem InSync.insert (synced : InSync content table) (row : Row) : InSync content (table.insert content row) where
  numbers := by
    rw [Indexed.insert, List.map_append]
    refine List.nodup_append.mpr ⟨synced.numbers, List.nodup_singleton _, fun number old fresh new => ?_⟩
    obtain ⟨other, member, rfl⟩ := List.mem_map.mp old
    have below := lt_nextNumber member
    intro same
    rw [List.map_singleton] at new
    rw [List.mem_singleton.mp new] at same
    omega
  index := by
    rw [Indexed.insert, List.map_append]
    exact List.Perm.append_right _ synced.index

/-- An update that leaves the indexed part of the rows alone. -/
theorem InSync.updateOther (synced : InSync content table) (same : ∀ row, content (change row) = content row) :
    InSync content (table.updateOther selected change) where
  numbers := by
    rw [Indexed.updateOther, updated_numbers]
    exact synced.numbers
  index := by
    rw [Indexed.updateOther, List.map_map]
    refine synced.index.trans (List.Perm.of_eq (List.map_congr_left fun row _ => ?_))
    simp only [Function.comp_apply, entry, updated]
    split
    · rw [same]
    · rfl

section Triggers
variable [DecidableEq Content]

/-- A trigger removes the entry of its row. -/
theorem forget_perm {index rest later : List (Nat × Content)} {row : Nat × Row}
    (synced : index.Perm (rest ++ entry content row :: later)) : (forget content index row).Perm (rest ++ later) := by
  have front : index.Perm (entry content row :: (rest ++ later)) := synced.trans List.perm_middle
  have erased := front.erase (entry content row)
  rwa [List.erase_cons_head] at erased

theorem foldl_replace {rows : List (Nat × Row)} {index rest : List (Nat × Content)}
    (synced : index.Perm (rest ++ rows.map (entry content))) :
    ((rows.filter (selected ·.2)).foldl (replace content change) index).Perm
      (rest ++ (rows.map (updated selected change)).map (entry content)) := by
  induction rows generalizing index rest with
  | nil => exact synced
  | cons row rows ih =>
    have step {index : List (Nat × Content)} {new : Nat × Content} (moved : index.Perm (rest ++ [new] ++ rows.map (entry content))) :
        ((rows.filter (selected ·.2)).foldl (replace content change) index).Perm
          (rest ++ new :: (rows.map (updated selected change)).map (entry content)) := by
      have done := ih moved
      rwa [List.append_assoc, List.singleton_append] at done
    rw [List.map_cons] at synced
    rw [List.map_cons, List.map_cons]
    cases chosen : selected row.2 with
    | true =>
      rw [List.filter_cons, if_pos chosen, List.foldl_cons, updated, if_pos chosen]
      apply step
      refine ((forget_perm synced).append_right _).trans ?_
      rw [List.append_assoc, List.append_assoc]
      exact List.Perm.append_left _ List.perm_append_comm
    | false =>
      rw [List.filter_cons, if_neg (by simp [chosen]), updated, if_neg (by simp [chosen])]
      apply step
      rwa [List.append_assoc, List.singleton_append]

theorem InSync.update (synced : InSync content table) : InSync content (table.update content selected change) where
  numbers := by
    rw [Indexed.update, updated_numbers]
    exact synced.numbers
  index := @foldl_replace _ _ content selected change _ table.rows table.index [] synced.index

theorem foldl_forget {rows : List (Nat × Row)} {index rest : List (Nat × Content)}
    (synced : index.Perm (rest ++ rows.map (entry content))) :
    ((rows.filter (selected ·.2)).foldl (forget content) index).Perm
      (rest ++ (rows.filter (!selected ·.2)).map (entry content)) := by
  induction rows generalizing index rest with
  | nil => exact synced
  | cons row rows ih =>
    rw [List.map_cons] at synced
    cases chosen : selected row.2 with
    | true =>
      rw [List.filter_cons, if_pos chosen, List.foldl_cons, List.filter_cons, if_neg (by simp [chosen])]
      exact ih (forget_perm synced)
    | false =>
      rw [List.filter_cons, if_neg (by simp [chosen]), List.filter_cons, if_pos (by simp [chosen]), List.map_cons]
      have moved : index.Perm (rest ++ [entry content row] ++ rows.map (entry content)) := by
        rwa [List.append_assoc, List.singleton_append]
      have done := ih moved
      rwa [List.append_assoc, List.singleton_append] at done

theorem InSync.delete (synced : InSync content table) : InSync content (table.delete content selected) where
  numbers := synced.numbers.sublist (List.filter_sublist.map _)
  index := @foldl_forget _ _ content selected _ table.rows table.index [] synced.index

end Triggers

/-- New numbers that are the old ones change nothing. -/
theorem renumber_same {after : Indexed Row Content} (taken : table.renumber (table.rows.map (·.1)) = some after) :
    after = table := by
  unfold renumber at taken
  split at taken
  · cases taken
    rw [List.zip_map', List.map_id'']
    exact fun _ => rfl
  · cases taken

/-- An index in sync finds by its number what was indexed of a row. -/
theorem InSync.any_index (synced : InSync content table) {row : Nat × Row} (member : row ∈ table.rows)
    (found : Content → Bool) : (table.index.any fun entry => entry.1 = row.1 && found entry.2) = found (content row.2) := by
  rw [Bool.eq_iff_iff, List.any_eq_true]
  constructor
  · rintro ⟨indexed, listed, holds⟩
    obtain ⟨other, present, rfl⟩ := List.mem_map.mp (synced.index.mem_iff.mp listed)
    obtain ⟨number, holds⟩ := Bool.and_eq_true_iff.mp holds
    have same : other = row := List.inj_on_of_nodup_map synced.numbers present member (of_decide_eq_true number)
    exact same ▸ holds
  · intro holds
    refine ⟨entry content row, synced.index.mem_iff.mpr (List.mem_map_of_mem member), ?_⟩
    exact Bool.and_eq_true_iff.mpr ⟨decide_eq_true rfl, holds⟩

end Indexed
end Foundation
