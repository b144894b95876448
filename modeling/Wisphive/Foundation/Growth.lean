import Mathlib.Data.List.Basic

/-! Lists that grow at their end while their elements are amended in place, and lists that
also lose elements. -/

namespace Foundation
namespace Growth
variable {α : Type*}

/-- Every element is still there, amended at most, and more may follow. -/
inductive Extends (amends : α → α → Prop) : List α → List α → Prop where
  | nil (added : List α) : Extends amends [] added
  | cons {old new before after} (amended : amends old new) (rest : Extends amends before after) :
      Extends amends (old :: before) (new :: after)

/-- Elements may be gone as well, but none changes its place or comes back. -/
inductive Revises (amends : α → α → Prop) : List α → List α → Prop where
  | nil (added : List α) : Revises amends [] added
  | drop {old before after} (rest : Revises amends before after) : Revises amends (old :: before) after
  | keep {old new before after} (amended : amends old new) (rest : Revises amends before after) :
      Revises amends (old :: before) (new :: after)

variable {amends : α → α → Prop} {before middle after : List α}

namespace Extends

theorem append (refl : ∀ element, amends element element) (elements added : List α) :
    Extends amends elements (elements ++ added) := by
  induction elements with
  | nil => exact .nil added
  | cons element rest ih => exact .cons (refl element) ih

theorem refl (refl : ∀ element, amends element element) (elements : List α) : Extends amends elements elements := by
  have same := append refl elements []
  rwa [List.append_nil] at same

theorem map {change : α → α} (changes : ∀ element ∈ before, amends element (change element)) :
    Extends amends before (before.map change) := by
  induction before with
  | nil => exact .nil _
  | cons element rest ih =>
    exact .cons (changes element List.mem_cons_self) (ih fun other member => changes other (List.mem_cons_of_mem _ member))

theorem trans (trans : ∀ {old mid new}, amends old mid → amends mid new → amends old new)
    (first : Extends amends before middle) (later : Extends amends middle after) : Extends amends before after := by
  induction first generalizing after with
  | nil => exact .nil after
  | cons amended _ ih =>
    cases later with
    | cons again rest => exact .cons (trans amended again) (ih rest)

theorem revises (extended : Extends amends before after) : Revises amends before after := by
  induction extended with
  | nil added => exact .nil added
  | cons amended _ ih => exact .keep amended ih

end Extends

namespace Revises

theorem of_sublist (refl : ∀ element, amends element element) (fewer : after.Sublist before) :
    Revises amends before after := by
  induction fewer with
  | slnil => exact .nil []
  | cons element _ ih => exact .drop ih
  | cons_cons element _ ih => exact .keep (refl element) ih

theorem trans (trans : ∀ {old mid new}, amends old mid → amends mid new → amends old new)
    (first : Revises amends before middle) (later : Revises amends middle after) : Revises amends before after := by
  induction first generalizing after with
  | nil => exact .nil after
  | drop _ ih => exact .drop (ih later)
  | keep amended _ ih =>
    cases later with
    | drop rest => exact .drop (ih rest)
    | keep again rest => exact .keep (trans amended again) (ih rest)

end Revises
end Growth
end Foundation
