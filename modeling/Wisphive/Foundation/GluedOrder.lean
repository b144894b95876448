import Mathlib.Data.List.Sort
import Mathlib.Data.List.Perm.Basic

/-! Two comparisons glued together: values that both have a key are compared by their keys, and
others as they are. What is sorted with a comparison that is an order on the items alone. -/

namespace Foundation
namespace GluedOrder
open Std
variable {α β : Type}

/-- The comparison is transitive on the items. -/
def Orders (cmp : α → α → Ordering) (items : List α) : Prop :=
  ∀ a ∈ items, ∀ b ∈ items, ∀ c ∈ items, (cmp a b).isLE = true → (cmp b c).isLE = true → (cmp a c).isLE = true

/-- What is promised of a sort: it keeps the items, and it sorts those that the comparison
orders. -/
structure Sorts (cmp : α → α → Ordering) (sort : List α → List α) : Prop where
  perm : ∀ items, (sort items).Perm items
  sorted : ∀ items, Orders cmp items → (sort items).Pairwise fun a b => (cmp a b).isLE = true

def glue (key : α → Option β) (inner : β → β → Ordering) (outer : α → α → Ordering) (a b : α) : Ordering :=
  match key a, key b with
  | some x, some y => inner x y
  | _, _ => outer a b

/-- No value without a key stands between two with a key that the keys order the other way. -/
def Agrees (key : α → Option β) (inner : β → β → Ordering) (outer : α → α → Ordering) (items : List α) : Prop :=
  ∀ a ∈ items, ∀ b ∈ items, ∀ c ∈ items, ∀ x y, key a = some x → key b = none → key c = some y →
    outer a b = .lt → outer b c = .lt → inner x y = .lt

/-! ### Sorting -/

section
variable {cmp : α → α → Ordering} {items listed : List α} {sort : List α → List α}

theorem Orders.perm (orders : Orders cmp items) (same : listed.Perm items) : Orders cmp listed :=
  fun a first b second c third => orders a (same.subset first) b (same.subset second) c (same.subset third)

/-- Where the comparison orders the items, the order in which they are listed does not matter. -/
theorem Sorts.eq_of_perm [OrientedCmp cmp] [LawfulEqCmp cmp] (sorts : Sorts cmp sort) (orders : Orders cmp items)
    (same : listed.Perm items) : sort listed = sort items := by
  have whole := ((sorts.perm listed).trans same).trans (sorts.perm items).symm
  refine List.Perm.eq_of_pairwise (fun a b _ _ below above => ?_) (sorts.sorted listed (orders.perm same))
    (sorts.sorted items orders) whole
  refine LawfulEqCmp.eq_of_compare (Ordering.eq_eq_of_isLE_of_isLE_swap below ?_)
  rwa [← OrientedCmp.eq_swap]

/-- A merge sort keeps the promise. -/
theorem sorts_mergeSort [OrientedCmp cmp] : Sorts cmp (·.mergeSort fun a b => cmp a b ≠ .gt) where
  perm items := List.mergeSort_perm ..
  sorted items orders := by
    have isLE (a b : α) : (cmp a b).isLE = decide (cmp a b ≠ .gt) := by cases cmp a b <;> rfl
    have within : (items.attach.mergeSort fun a b => cmp a.1 b.1 ≠ .gt).Pairwise fun a b => decide (cmp a.1 b.1 ≠ .gt) = true := by
      apply List.pairwise_mergeSort
      · intro a b c first second
        rw [← isLE] at first second ⊢
        exact orders a.1 a.2 b.1 b.2 c.1 c.2 first second
      · intro a b
        have swapped : cmp a.1 b.1 = (cmp b.1 a.1).swap := OrientedCmp.eq_swap
        rw [swapped]
        cases cmp b.1 a.1 <;> rfl
    have mapped : (items.attach.mergeSort fun a b => cmp a.1 b.1 ≠ .gt).map Subtype.val =
        items.mergeSort fun a b => cmp a b ≠ .gt := by
      have same : ∀ a ∈ items.attach, ∀ b ∈ items.attach,
          decide (cmp a.1 b.1 ≠ .gt) = decide (cmp (Subtype.val a) (Subtype.val b) ≠ .gt) := fun _ _ _ _ => rfl
      have moved := @List.map_mergeSort _ _ (fun a b => cmp a.1 b.1 ≠ .gt) (fun a b => cmp a b ≠ .gt) Subtype.val items.attach same
      rwa [List.attach_map_subtype_val] at moved
    rw [← mapped, List.pairwise_map]
    exact within.imp fun {a b} below => (isLE a.1 b.1).trans below

/-- Where the comparison does not order the items, a sort may give either of two as the last. -/
theorem last_depends [OrientedCmp cmp] (cycles : ¬ Orders cmp items) :
    ∃ sort, Sorts cmp sort ∧ ∃ listed, listed.Perm items ∧ (sort listed).getLast? ≠ (sort items).getLast? := by
  classical
  have distinct : ∃ a ∈ items, ∃ c ∈ items, a ≠ c := by
    by_contra alone
    refine cycles fun a first b _ c third _ _ => ?_
    have same : a = c := by
      by_contra differs
      exact alone ⟨a, first, c, third, differs⟩
    have equal : cmp c c = .eq := ReflCmp.compare_self
    rw [same, equal]
    rfl
  obtain ⟨a, first, c, third, differs⟩ := distinct
  obtain ⟨other, member, last⟩ : ∃ other ∈ items, items.getLast? ≠ some other := by
    by_cases same : items.getLast? = some a
    · exact ⟨c, third, fun equal => differs (Option.some.inj (same.symm.trans equal))⟩
    · exact ⟨a, first, same⟩
  have moved : (items.erase other ++ [other]).Perm items :=
    (List.perm_append_comm).trans (List.perm_cons_erase member).symm
  refine ⟨fun items => if Orders cmp items then items.mergeSort fun a b => cmp a b ≠ .gt else items, ⟨fun items => ?_, ?_⟩,
    items.erase other ++ [other], moved, ?_⟩
  · split
    next => exact List.mergeSort_perm ..
    next => exact .refl _
  · intro items orders
    rw [if_pos orders]
    exact sorts_mergeSort.sorted items orders
  · have cyclic : ¬ Orders cmp (items.erase other ++ [other]) := fun orders => cycles (orders.perm moved.symm)
    dsimp only
    rw [if_neg cyclic, if_neg cycles, List.getLast?_concat]
    exact fun same => last same.symm

end

/-! ### Gluing -/

section
variable {key : α → Option β} {inner : β → β → Ordering} {outer : α → α → Ordering} {items : List α} {a b c : α} {x y z : β}

theorem glue_keyed (first : key a = some x) (second : key b = some y) : glue key inner outer a b = inner x y := by
  rw [glue, first, second]

theorem glue_left (first : key a = none) : glue key inner outer a b = outer a b := by
  rw [glue, first]

theorem glue_right (second : key b = none) : glue key inner outer a b = outer a b := by
  rw [glue, second]
  cases key a <;> rfl

instance [OrientedCmp inner] [OrientedCmp outer] : OrientedCmp (glue key inner outer) where
  eq_swap {a b} := by
    cases first : key a with
    | none =>
      rw [glue_left first, glue_right first]
      exact OrientedCmp.eq_swap
    | some x =>
      cases second : key b with
      | none =>
        rw [glue_right second, glue_left second]
        exact OrientedCmp.eq_swap
      | some y =>
        rw [glue_keyed first second, glue_keyed second first]
        exact OrientedCmp.eq_swap

/-- A key tells its value. -/
theorem glue_lawful [OrientedCmp inner] [OrientedCmp outer] [LawfulEqCmp outer]
    (tells : ∀ {a b x y}, key a = some x → key b = some y → inner x y = .eq → a = b) : LawfulEqCmp (glue key inner outer) where
  eq_of_compare {a b} same := by
    cases first : key a with
    | none => exact LawfulEqCmp.eq_of_compare ((glue_left first).symm.trans same)
    | some x =>
      cases second : key b with
      | none => exact LawfulEqCmp.eq_of_compare ((glue_right second).symm.trans same)
      | some y => exact tells first second ((glue_keyed first second).symm.trans same)

variable [TransCmp inner] [TransCmp outer] [LawfulEqCmp outer]

omit [TransCmp outer] in
/-- Of two values only one of which has a key, one is below. -/
theorem lt_of_isLE {first second : Option β} (left : key a = first) (right : key b = second) (apart : first ≠ second)
    (below : (outer a b).isLE = true) : outer a b = .lt := by
  rcases Ordering.isLE_iff_eq_lt_or_eq_eq.mp below with less | same
  · exact less
  · rw [← left, ← right] at apart
    exact absurd (congrArg key (LawfulEqCmp.eq_of_compare same)) apart

omit [LawfulEqCmp outer] in
theorem gt_of_not_isLE (above : ¬ (outer a b).isLE = true) : outer b a = .lt := by
  have swapped : outer a b = (outer b a).swap := OrientedCmp.eq_swap
  rw [swapped] at above
  cases held : outer b a with
  | lt => rfl
  | eq | gt => rw [held] at above; exact absurd rfl above

theorem not_isLE_of_gt (less : inner y x = .lt) : ¬ (inner x y).isLE = true := by
  have swapped : inner x y = (inner y x).swap := OrientedCmp.eq_swap
  rw [swapped, less]
  decide

/-- The glued comparison orders the items exactly if the two comparisons agree about those with
a key wherever one without a key stands between them. -/
theorem orders_glue_iff (tells : ∀ {a b x y}, key a = some x → key b = some y → inner x y = .eq → a = b) :
    Orders (glue key inner outer) items ↔ Agrees key inner outer items := by
  constructor
  · intro orders a first b second c third x y keyed plain other below above
    have within := orders a first b second c third
    rw [glue_right plain, glue_left plain, glue_keyed keyed other, below, above] at within
    rcases Ordering.isLE_iff_eq_lt_or_eq_eq.mp (within rfl rfl) with less | same
    · exact less
    · have equal := tells keyed other same
      subst equal
      have swapped : outer a b = (outer b a).swap := OrientedCmp.eq_swap
      rw [below, above] at swapped
      cases swapped
  · intro agrees a first b second c third below above
    cases firstKey : key a with
    | none =>
      rw [glue_left firstKey] at below ⊢
      cases secondKey : key b with
      | none =>
        rw [glue_left secondKey] at above
        exact TransCmp.isLE_trans below above
      | some y =>
        cases thirdKey : key c with
        | none =>
          rw [glue_right thirdKey] at above
          exact TransCmp.isLE_trans below above
        | some z =>
          -- The one without a key is below both, or else it stands between them.
          by_contra beyond
          rw [glue_keyed secondKey thirdKey] at above
          have less := lt_of_isLE firstKey secondKey (by simp) below
          exact not_isLE_of_gt (agrees c third a first b second z y thirdKey firstKey secondKey (gt_of_not_isLE beyond) less) above
    | some x =>
      cases secondKey : key b with
      | none =>
        rw [glue_right secondKey] at below
        rw [glue_left secondKey] at above
        cases thirdKey : key c with
        | none =>
          rw [glue_right thirdKey]
          exact TransCmp.isLE_trans below above
        | some z =>
          have less := lt_of_isLE firstKey secondKey (by simp) below
          have more := lt_of_isLE secondKey thirdKey (by simp) above
          rw [glue_keyed firstKey thirdKey, agrees a first b second c third x z firstKey secondKey thirdKey less more]
          rfl
      | some y =>
        rw [glue_keyed firstKey secondKey] at below
        cases thirdKey : key c with
        | none =>
          by_contra under
          rw [glue_right thirdKey] at above under
          have less := lt_of_isLE secondKey thirdKey (by simp) above
          exact not_isLE_of_gt (agrees b second c third a first y x secondKey thirdKey firstKey less (gt_of_not_isLE under)) below
        | some z =>
          rw [glue_keyed secondKey thirdKey] at above
          rw [glue_keyed firstKey thirdKey]
          exact TransCmp.isLE_trans below above

end
end GluedOrder
end Foundation
