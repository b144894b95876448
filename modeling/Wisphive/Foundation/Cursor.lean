import Mathlib.Data.List.Nodup

/-! A position in a list whose items come and go. Items are added at the end, and a position
that fell off the end goes to the last item. -/

namespace Foundation
namespace Cursor
variable {Item Key : Type*} {items more : List Item} {keeps : Item → Bool} {index : Nat} {item other : Item}

/-- The position in what is left. -/
def clamp (items : List Item) (index : Nat) : Nat :=
  if index ≥ items.length ∧ 0 < items.length then items.length - 1 else index

/-- How many items in front of the position go. -/
def gone (keeps : Item → Bool) (items : List Item) (index : Nat) : Nat :=
  (items.take index).countP (!keeps ·)

/-- What is left behind the position. -/
def behind (keeps : Item → Bool) (items : List Item) (index : Nat) : List Item :=
  (items.drop (index + 1)).filter keeps

/-- Nothing goes in front of the position, or the item behind it that takes its place is the
same one. There is none where nothing is left behind the position. -/
def Stays (keeps : Item → Bool) (items : List Item) (index : Nat) : Prop :=
  gone keeps items index = 0 ∨
    ∀ other ∈ (behind keeps items index)[min (gone keeps items index) (behind keeps items index).length - 1]?,
      items[index]? = some other

instance [DecidableEq Item] : Decidable (Stays keeps items index) :=
  inferInstanceAs (Decidable (_ ∨ _))

theorem get_append (found : items[index]? = some item) : (items ++ more)[index]? = some item := by
  obtain ⟨inside, _⟩ := List.getElem?_eq_some_iff.mp found
  rw [List.getElem?_append_left inside]
  exact found

theorem filter_split (found : items[index]? = some item) (kept : keeps item = true) :
    items.filter keeps = (items.take index).filter keeps ++ item :: behind keeps items index := by
  obtain ⟨inside, rfl⟩ := List.getElem?_eq_some_iff.mp found
  have whole : items = items.take index ++ items[index] :: items.drop (index + 1) := by
    rw [← List.drop_eq_getElem_cons inside, List.take_append_drop]
  calc items.filter keeps = (items.take index ++ items[index] :: items.drop (index + 1)).filter keeps := by rw [← whole]
    _ = _ := by rw [List.filter_append, List.filter_cons_of_pos kept, behind]

theorem length_front (found : items[index]? = some item) :
    ((items.take index).filter keeps).length + gone keeps items index = index := by
  obtain ⟨inside, _⟩ := List.getElem?_eq_some_iff.mp found
  have counted : (items.take index).length = _ := List.length_eq_countP_add_countP keeps
  have others : gone keeps items index = (items.take index).countP fun item => ¬keeps item :=
    List.countP_congr fun _ _ => by simp
  rw [others, ← List.countP_eq_length_filter, ← counted, List.length_take, Nat.min_eq_left (Nat.le_of_lt inside)]

/-- The position moves back by what goes in front of it, as far as there are items. -/
theorem get_clamp (found : items[index]? = some item) (kept : keeps item = true) :
    (items.filter keeps)[clamp (items.filter keeps) index]? =
      (item :: behind keeps items index)[min (gone keeps items index) (behind keeps items index).length]? := by
  have front := @length_front _ _ keeps _ _ found
  rw [filter_split found kept, clamp, List.length_append, List.length_cons]
  split
  next outside =>
    rw [List.getElem?_append_right (by omega)]
    congr 1
    omega
  next within =>
    rw [List.getElem?_append_right (by omega)]
    congr 1
    omega

theorem get_clamp_iff (found : items[index]? = some item) (kept : keeps item = true) :
    (items.filter keeps)[clamp (items.filter keeps) index]? = some item ↔ Stays keeps items index := by
  rw [get_clamp found kept, Stays, found]
  cases moved : gone keeps items index with
  | zero => simp
  | succ count =>
    cases behind keeps items index with
    | nil => simp
    | cons first rest =>
      have position : min (count + 1) (first :: rest).length = min count rest.length + 1 := by
        rw [List.length_cons]
        omega
      rw [position, List.getElem?_cons_succ, Nat.add_sub_cancel]
      have inside : min count rest.length < (first :: rest).length := by
        rw [List.length_cons]
        omega
      rw [List.getElem?_eq_getElem inside]
      simp [eq_comm]

/-- Where no two items share a key, an item behind the position is another one. -/
theorem stays_iff_of_distinct {key : Item → Key} (distinct : (items.map key).Nodup) (inside : index < items.length) :
    Stays keeps items index ↔ gone keeps items index = 0 ∨ behind keeps items index = [] := by
  have others : items[index] ∉ behind keeps items index := by
    intro member
    have nodup := List.Nodup.of_map _ distinct
    rw [← List.take_append_drop index items, List.drop_eq_getElem_cons inside] at nodup
    have apart := (List.nodup_cons.mp (List.nodup_append.mp nodup).2.1).1
    exact apart (List.mem_of_mem_filter member)
  refine or_congr_right ?_
  constructor
  · intro lands
    by_contra left
    have positive : 0 < (behind keeps items index).length := List.length_pos_iff.mpr left
    have found := lands _ (List.getElem?_eq_getElem (by omega))
    rw [List.getElem?_eq_getElem inside, Option.some.injEq] at found
    exact others (found ▸ List.getElem_mem _)
  · intro nothing other found
    rw [nothing] at found
    cases found

end Cursor
end Foundation
