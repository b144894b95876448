import Mathlib.Data.List.Induction
import Mathlib.Data.List.Perm.Basic
import Wisphive.Foundation.Assoc

/-! Items that are folded into one value for each key, in the order in which the keys first
appear, and groups of items that are sorted, each in itself and among each other. -/

namespace Foundation
namespace Grouping
variable {Item Key Value : Type*} [DecidableEq Key]

/-- Change the value of a key. A new key starts with a value of its own. -/
def modify (start : Key → Value) (key : Key) (change : Value → Value) (entries : List (Key × Value)) :
    List (Key × Value) :=
  Assoc.set entries key (change ((entries.lookup key).getD (start key)))

/-- Note each item in the value of its key. -/
def collect (keyOf : Item → Key) (start : Key → Value) (note : Value → Item → Value) (entries : List (Key × Value))
    (items : List Item) : List (Key × Value) :=
  items.foldl (fun entries item => modify start (keyOf item) (note · item) entries) entries

/-- The items of each key. -/
def groups (keyOf : Item → Key) (items : List Item) : List (Key × List Item) :=
  collect keyOf (fun _ => []) (fun group item => group ++ [item]) [] items

/-- Groups are compared by their first items. -/
def headLe (le : Item → Item → Bool) (left right : List Item) : Bool :=
  match left, right with
  | first :: _, second :: _ => le first second
  | _, _ => true

/-- The groups, sorted. -/
def arrange (keyOf : Item → Key) (le : Item → Item → Bool) (items : List Item) : List (Key × List Item) :=
  ((groups keyOf items).map fun group => (group.1, group.2.mergeSort le)).mergeSort fun left right =>
    headLe le left.2 right.2

variable {keyOf : Item → Key} {start : Key → Value} {note : Value → Item → Value} {items rest : List Item}
  {key : Key} {value : Value}

theorem firsts_snoc (seen : List Key) (items : List Item) (item : Item) :
    Assoc.firsts keyOf seen (items ++ [item]) =
      Assoc.firsts keyOf seen items ++ if keyOf item ∈ seen ∨ keyOf item ∈ items.map keyOf then [] else [item] := by
  induction items generalizing seen with
  | nil => simp only [List.nil_append, Assoc.firsts, List.map_nil, List.not_mem_nil, or_false]
  | cons first rest ih =>
    simp only [List.cons_append, Assoc.firsts, List.map_cons, List.mem_cons]
    by_cases old : keyOf first ∈ seen
    · rw [if_pos old, if_pos old, ih]
      congr 1
      apply if_congr _ rfl rfl
      constructor
      · rintro (known | later)
        · exact .inl known
        · exact .inr (.inr later)
      · rintro (known | same | later)
        · exact .inl known
        · exact .inl (same ▸ old)
        · exact .inr later
    · rw [if_neg old, if_neg old, ih, List.cons_append]
      congr 2
      apply if_congr _ rfl rfl
      rw [List.mem_cons, or_assoc, or_left_comm]

/-- The keys of the items, each where it first appears. -/
def keys (keyOf : Item → Key) (items : List Item) : List Key :=
  (Assoc.firsts keyOf [] items).map keyOf

theorem keys_snoc (items : List Item) (item : Item) :
    keys keyOf (items ++ [item]) = keys keyOf items ++ if keyOf item ∈ items.map keyOf then [] else [keyOf item] := by
  rw [keys, firsts_snoc, List.map_append, keys]
  simp only [List.not_mem_nil, false_or]
  split <;> rfl

theorem mem_keys : key ∈ keys keyOf items ↔ key ∈ items.map keyOf := by
  induction items using List.reverseRecOn with
  | nil => rfl
  | append_singleton items item ih =>
    rw [keys_snoc, List.map_append, List.mem_append, List.mem_append, ih, List.map_singleton, List.mem_singleton]
    split
    next old =>
      rw [List.mem_nil_iff, or_false]
      exact ⟨.inl, fun either => either.elim id fun same => same ▸ old⟩
    next => rw [List.mem_singleton]

theorem nodup_keys : (keys keyOf items).Nodup := by
  induction items using List.reverseRecOn with
  | nil => exact List.nodup_nil
  | append_singleton items item ih =>
    rw [keys_snoc]
    split
    next => rwa [List.append_nil]
    next fresh =>
      refine List.nodup_append.mpr ⟨ih, List.nodup_singleton _, fun known member other last same => ?_⟩
      rw [same, List.mem_singleton.mp last] at member
      exact fresh (mem_keys.mp member)

/-- What the items of a key come to. -/
def tallied (keyOf : Item → Key) (start : Key → Value) (note : Value → Item → Value) (items : List Item) (key : Key) :
    Value :=
  (items.filter (keyOf · = key)).foldl note (start key)

theorem tallied_snoc (items : List Item) (item : Item) :
    tallied keyOf start note (items ++ [item]) key =
      if keyOf item = key then note (tallied keyOf start note items key) item else tallied keyOf start note items key := by
  rw [tallied, List.filter_append]
  by_cases same : keyOf item = key
  · rw [if_pos same, List.filter_cons_of_pos (by simpa using same), List.foldl_append]
    rfl
  · rw [if_neg same, List.filter_cons_of_neg (by simpa using same), List.filter_nil, List.append_nil]
    rfl

theorem lookup_map_keys (names : List Key) (valueOf : Key → Value) :
    (names.map fun name => (name, valueOf name)).lookup key = if key ∈ names then some (valueOf key) else none := by
  induction names with
  | nil => rfl
  | cons name names ih =>
    rw [List.map_cons, List.lookup_cons, ih]
    by_cases same : key = name
    · simp [same]
    · simp [same, beq_false_of_ne same]

/-- The collection, key by key. -/
theorem collect_eq :
    collect keyOf start note [] items = (keys keyOf items).map fun key => (key, tallied keyOf start note items key) := by
  induction items using List.reverseRecOn with
  | nil => rfl
  | append_singleton items item ih =>
    have last : collect keyOf start note [] (items ++ [item]) =
        modify start (keyOf item) (note · item) (collect keyOf start note [] items) := List.foldl_concat ..
    have names : ((keys keyOf items).map fun key => (key, tallied keyOf start note items key)).map Prod.fst =
        keys keyOf items := by
      rw [List.map_map]
      exact List.map_id _
    rw [last, ih, modify, lookup_map_keys, Assoc.set, names, keys_snoc, List.map_append]
    simp only [mem_keys]
    by_cases old : keyOf item ∈ items.map keyOf
    · simp only [if_pos old, Option.getD_some, List.map_nil, List.append_nil, List.map_map]
      apply List.map_congr_left
      intro key _
      rw [Function.comp_apply, tallied_snoc]
      by_cases same : keyOf item = key
      · subst same
        rw [if_pos rfl, if_pos rfl]
      · rw [if_neg same, if_neg (Ne.symm same)]
    · have none : tallied keyOf start note items (keyOf item) = start (keyOf item) := by
        rw [tallied, List.filter_eq_nil_iff.mpr]
        · rfl
        · intro other member
          rw [decide_eq_true_eq]
          exact fun same => old (List.mem_map.mpr ⟨other, member, same⟩)
      simp only [if_neg old, Option.getD_none, List.map_singleton, tallied_snoc, if_pos, none]
      congr 1
      apply List.map_congr_left
      intro key member
      rw [if_neg]
      rintro rfl
      exact old (mem_keys.mp member)

theorem keyed_collect : Assoc.Keyed (collect keyOf start note [] items) := by
  rw [collect_eq, Assoc.Keyed, List.map_map]
  exact (List.map_id _).symm ▸ nodup_keys

/-! ### Groups -/

theorem groups_eq : groups keyOf items = (keys keyOf items).map fun key => (key, items.filter (keyOf · = key)) := by
  have appended (list : List Item) : list.foldl (fun group item => group ++ [item]) [] = list := by
    induction list using List.reverseRecOn with
    | nil => rfl
    | append_singleton list item ih => rw [List.foldl_append, ih]; rfl
  rw [groups, collect_eq]
  apply List.map_congr_left
  intro key _
  rw [tallied, appended]

/-- The groups of distinct keys are the items with these keys. -/
theorem flatMap_filter_perm {names : List Key} (distinct : names.Nodup) :
    (names.flatMap fun name => items.filter (keyOf · = name)).Perm (items.filter (keyOf · ∈ names)) := by
  induction names with
  | nil => simp
  | cons name names ih =>
    rw [List.nodup_cons] at distinct
    have first : (items.filter (keyOf · ∈ name :: names)).filter (keyOf · = name) = items.filter (keyOf · = name) := by
      rw [List.filter_filter]
      apply List.filter_congr
      intro item _
      by_cases same : keyOf item = name <;> simp [same]
    have others : (items.filter (keyOf · ∈ name :: names)).filter (fun item => !decide (keyOf item = name)) =
        items.filter (keyOf · ∈ names) := by
      rw [List.filter_filter]
      apply List.filter_congr
      intro item _
      by_cases same : keyOf item = name
      · simp [same, distinct.1]
      · simp [same]
    have parts := List.filter_append_perm (fun item => decide (keyOf item = name)) (items.filter (keyOf · ∈ name :: names))
    rw [first, others] at parts
    rw [List.flatMap_cons]
    exact ((ih distinct.2).append_left _).trans parts

theorem flatMap_groups_perm : ((groups keyOf items).flatMap Prod.snd).Perm items := by
  have all : items.filter (keyOf · ∈ keys keyOf items) = items := by
    refine List.filter_eq_self.mpr fun item member => decide_eq_true ?_
    exact mem_keys.mpr (List.mem_map.mpr ⟨item, member, rfl⟩)
  rw [groups_eq, List.flatMap_map]
  exact (flatMap_filter_perm nodup_keys).trans (List.Perm.of_eq all)

variable {le : Item → Item → Bool}

/-- Sorting loses no item. -/
theorem flatMap_arrange_perm : ((arrange keyOf le items).flatMap Prod.snd).Perm items := by
  have sorted : ((groups keyOf items).map fun group => (group.1, group.2.mergeSort le)).flatMap Prod.snd =
      (groups keyOf items).flatMap fun group => group.2.mergeSort le := List.flatMap_map ..
  refine ((List.mergeSort_perm _ _).flatMap_right _).trans ?_
  rw [sorted]
  have unsorted : ((groups keyOf items).flatMap fun group => group.2.mergeSort le).Perm
      ((groups keyOf items).flatMap Prod.snd) := List.Perm.flatMap_left _ fun group _ => List.mergeSort_perm _ _
  exact unsorted.trans flatMap_groups_perm

end Grouping
end Foundation
