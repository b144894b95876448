import Mathlib.Data.List.Basic

/-! The TOML data model, and folds that may fail. A table lists its entries in the order in
which it is iterated. -/

namespace Foundation

inductive Toml where
  | string (text : String)
  | integer (value : Int)
  | float (text : String)
  | boolean (value : Bool)
  | datetime (text : String)
  | array (items : List Toml)
  | table (entries : List (String × Toml))

abbrev TomlTable := List (String × Toml)

namespace Toml

def isTrue : Toml → Bool
  | .boolean value => value
  | _ => false

def isFalse : Toml → Bool
  | .boolean value => !value
  | _ => false

/-- A table inside a value, through tables and arrays. -/
inductive Within (inner : TomlTable) : Toml → Prop where
  | self : Within inner (.table inner)
  | entry {key value entries} (member : (key, value) ∈ entries) (deeper : Within inner value) :
      Within inner (.table entries)
  | item {value items} (member : value ∈ items) (deeper : Within inner value) : Within inner (.array items)

theorem isTrue_iff {value : Toml} : value.isTrue = true ↔ value = .boolean true := by
  cases value <;> simp [isTrue]

theorem isFalse_iff {value : Toml} : value.isFalse = true ↔ value = .boolean false := by
  cases value <;> simp [isFalse]

end Toml

namespace Fold
variable {State Item Error : Type*} {step : State → Item → Except Error State} {before after : State} {item : Item}
  {items : List Item}

theorem bind_ok.{level} {Value Result : Type level} {first : Except Error Value} {rest : Value → Except Error Result} {result : Result}
    (done : (first >>= rest) = .ok result) : ∃ value, first = .ok value ∧ rest value = .ok result := by
  cases first with
  | error message => cases done
  | ok value => exact ⟨value, rfl, done⟩

theorem cons_ok (done : (item :: items).foldlM step before = .ok after) :
    ∃ middle, step before item = .ok middle ∧ items.foldlM step middle = .ok after := by
  rw [List.foldlM_cons] at done
  exact bind_ok done

/-- What every step leads to, a whole fold leads to. -/
theorem grows {leads : State → State → Prop} (refl : ∀ state, leads state state)
    (trans : ∀ first second third, leads first second → leads second third → leads first third)
    (steps : ∀ before item after, item ∈ items → step before item = .ok after → leads before after)
    (done : items.foldlM step before = .ok after) : leads before after := by
  induction items generalizing before with
  | nil =>
    cases done
    exact refl _
  | cons item rest ih =>
    obtain ⟨middle, first, later⟩ := cons_ok done
    exact trans _ _ _ (steps _ _ _ (List.mem_cons_self ..) first)
      (ih (fun _ _ _ member => steps _ _ _ (List.mem_cons_of_mem _ member)) later)

/-- What every step keeps, a whole fold keeps. -/
theorem preserves {holds : State → Prop}
    (steps : ∀ before item after, item ∈ items → step before item = .ok after → holds before → holds after)
    (done : items.foldlM step before = .ok after) : holds before → holds after :=
  @grows _ _ _ _ _ _ _ (fun before after => holds before → holds after) (fun _ => id)
    (fun _ _ _ first second => second ∘ first) steps done

/-- Every item had its step. -/
theorem visits {leads : State → State → Prop} (refl : ∀ state, leads state state)
    (trans : ∀ first second third, leads first second → leads second third → leads first third)
    (steps : ∀ before item after, item ∈ items → step before item = .ok after → leads before after)
    (done : items.foldlM step before = .ok after) (member : item ∈ items) :
    ∃ first second, step first item = .ok second ∧ leads second after := by
  induction items generalizing before with
  | nil => cases member
  | cons head rest ih =>
    obtain ⟨middle, first, later⟩ := cons_ok done
    have stepsRest : ∀ before item after, item ∈ rest → step before item = .ok after → leads before after :=
      fun _ _ _ inside => steps _ _ _ (List.mem_cons_of_mem _ inside)
    rcases List.mem_cons.mp member with rfl | inside
    · exact ⟨before, middle, first, grows refl trans stepsRest later⟩
    · exact ih stepsRest later inside

end Fold
end Foundation
