import Wisphive.Foundation.JsonPatch

/-! Edits in place: one member is changed or put where it is missing, and the others are left. -/

namespace Foundation
namespace Json
variable {members : Members} {key other : String} {value fallback : Json} {f g : Json → Json}

/-- The value under a key is changed, if there is one. -/
def adjust (key : String) (f : Json → Json) : Members → Members
  | [] => []
  | (name, value) :: rest => if name = key then (name, f value) :: rest else (name, value) :: adjust key f rest

/-- A missing key is put at the end. -/
def ensure (key : String) (fallback : Json) (members : Members) : Members :=
  if key ∈ members.map Prod.fst then members else members ++ [(key, fallback)]

/-- The member of an object under a key is changed. -/
def adjustAt (key : String) (f : Json → Json) : Json → Json
  | .object members => .object (adjust key f members)
  | value => value

theorem keys_adjust : (adjust key f members).map Prod.fst = members.map Prod.fst := by
  induction members with
  | nil => rfl
  | cons first rest ih =>
    obtain ⟨name, held⟩ := first
    rw [adjust]
    split
    next => rfl
    next => rw [List.map_cons, List.map_cons, ih]

theorem lookup_adjust :
    (adjust key f members).lookup other = if other = key then (members.lookup key).map f else members.lookup other := by
  induction members with
  | nil => rw [adjust, List.lookup_nil, List.lookup_nil, Option.map_none, ite_self]
  | cons first rest ih =>
    obtain ⟨name, held⟩ := first
    rw [adjust]
    by_cases same : name = key
    · subst same
      rw [if_pos rfl, List.lookup_cons, List.lookup_cons_self]
      by_cases asked : other = name
      · simp [asked]
      · simp [asked, List.lookup_cons, beq_false_of_ne asked]
    · rw [if_neg same, List.lookup_cons, ih, List.lookup_cons, List.lookup_cons, beq_false_of_ne (Ne.symm same)]
      by_cases asked : other = name
      · subst asked
        simp [same]
      · simp [beq_false_of_ne asked]

theorem lookup_ensure :
    (ensure key fallback members).lookup other =
      if other = key then some ((members.lookup key).getD fallback) else members.lookup other := by
  rw [ensure]
  split
  next present =>
    split
    next same =>
      subst same
      cases found : members.lookup other with
      | none => exact absurd present (lookup_eq_none.mp found)
      | some value => rfl
    next => rfl
  next absent =>
    rw [List.lookup_append, List.lookup_cons, List.lookup_nil]
    by_cases same : other = key
    · subst same
      simp [lookup_eq_none.mpr absent]
    · simp [same, beq_false_of_ne same]

theorem adjust_adjust : adjust key f (adjust key g members) = adjust key (f ∘ g) members := by
  induction members with
  | nil => rfl
  | cons first rest ih =>
    obtain ⟨name, held⟩ := first
    by_cases same : name = key
    · rw [adjust, if_pos same, adjust, if_pos same, adjust, if_pos same, Function.comp_apply]
    · rw [adjust, if_neg same, adjust, if_neg same, adjust, if_neg same, ih]

theorem adjust_comm (differs : key ≠ other) : adjust key f (adjust other g members) = adjust other g (adjust key f members) := by
  induction members with
  | nil => rfl
  | cons first rest ih =>
    obtain ⟨name, held⟩ := first
    by_cases same : name = other
    · subst same
      simp [adjust, Ne.symm differs]
    · by_cases given : name = key
      · subst given
        simp [adjust, differs]
      · simp [adjust, same, given, ih]

theorem adjust_append_of_mem {more : Members} (present : key ∈ members.map Prod.fst) :
    adjust key f (members ++ more) = adjust key f members ++ more := by
  induction members with
  | nil => cases present
  | cons first rest ih =>
    obtain ⟨name, held⟩ := first
    rw [List.cons_append, adjust, adjust]
    split
    next => rfl
    next differs =>
      rw [List.map_cons, List.mem_cons] at present
      rw [ih (present.resolve_left (Ne.symm differs)), List.cons_append]

theorem adjust_of_not_mem (absent : key ∉ members.map Prod.fst) : adjust key f members = members := by
  induction members with
  | nil => rfl
  | cons first rest ih =>
    obtain ⟨name, held⟩ := first
    rw [List.map_cons, List.mem_cons, not_or] at absent
    rw [adjust, if_neg (Ne.symm absent.1), ih absent.2]

theorem adjust_ensure (differs : key ≠ other) :
    adjust key f (ensure other fallback members) = ensure other fallback (adjust key f members) := by
  rw [ensure, ensure, keys_adjust]
  split
  next => rfl
  next absent =>
    by_cases present : key ∈ members.map Prod.fst
    · exact adjust_append_of_mem present
    · rw [adjust_of_not_mem present, adjust_of_not_mem]
      rw [List.map_append, List.mem_append, List.map_singleton, List.mem_singleton, not_or]
      exact ⟨present, differs⟩

/-- A change that gives the value back changes nothing. -/
theorem adjust_eq_self (kept : ∀ value, members.lookup key = some value → f value = value) : adjust key f members = members := by
  induction members with
  | nil => rfl
  | cons first rest ih =>
    obtain ⟨name, held⟩ := first
    rw [adjust]
    split
    next same =>
      subst same
      rw [kept held List.lookup_cons_self]
    next differs =>
      rw [ih]
      intro value found
      exact kept value (by rw [List.lookup_cons, beq_false_of_ne (Ne.symm differs)]; exact found)

/-- Two changes agree exactly if they agree on the value. -/
theorem adjust_eq_adjust_iff :
    adjust key f members = adjust key g members ↔ ∀ value, members.lookup key = some value → f value = g value := by
  constructor
  · intro same value found
    have looked := congrArg (·.lookup key) same
    simp only [lookup_adjust, if_true, found, Option.map_some, Option.some.injEq] at looked
    exact looked
  · intro agree
    induction members with
    | nil => rfl
    | cons first rest ih =>
      obtain ⟨name, held⟩ := first
      rw [adjust, adjust]
      split
      next same =>
        subst same
        rw [agree held List.lookup_cons_self]
      next differs =>
        rw [ih]
        intro value found
        exact agree value (by rw [List.lookup_cons, beq_false_of_ne (Ne.symm differs)]; exact found)

/-- Changes of two keys agree exactly if they agree on both values. -/
theorem adjust_two_iff {a b : Json → Json} (differs : key ≠ other) :
    adjust key f (adjust other a members) = adjust key g (adjust other b members) ↔
      (∀ value, members.lookup other = some value → a value = b value) ∧
        ∀ value, members.lookup key = some value → f value = g value := by
  constructor
  · intro same
    constructor
    · intro value found
      have looked := congrArg (·.lookup other) same
      simp only [lookup_adjust, Ne.symm differs, if_false, if_true, found, Option.map_some, Option.some.injEq] at looked
      exact looked
    · intro value found
      have looked := congrArg (·.lookup key) same
      simp only [lookup_adjust, differs, if_false, if_true, found, Option.map_some, Option.some.injEq] at looked
      exact looked
  · rintro ⟨first, second⟩
    rw [adjust_eq_adjust_iff.mpr first]
    refine adjust_eq_adjust_iff.mpr fun value found => second value ?_
    rwa [lookup_adjust, if_neg differs] at found

theorem ensure_of_lookup (found : members.lookup key = some value) : ensure key fallback members = members := by
  rw [ensure, if_pos]
  by_contra absent
  rw [lookup_eq_none.mpr absent] at found
  cases found

/-! ### Several keys -/

section
variable {step : Members → String → Members} {effect : Option Json → Option Json}

/-- Steps that each touch one key, over distinct keys. -/
theorem lookup_foldl (each : ∀ members key other, (step members key).lookup other =
      if other = key then effect (members.lookup key) else members.lookup other) (keys : List String) (distinct : keys.Nodup) :
    (keys.foldl step members).lookup other = if other ∈ keys then effect (members.lookup other) else members.lookup other := by
  induction keys generalizing members with
  | nil => simp
  | cons key rest ih =>
    rw [List.nodup_cons] at distinct
    rw [List.foldl_cons, ih distinct.2, each]
    by_cases same : other = key
    · subst same
      simp [distinct.1]
    · simp [same]

/-- Steps that change nothing. -/
theorem foldl_eq_self (keys : List String) (idle : ∀ key ∈ keys, step members key = members) :
    keys.foldl step members = members := by
  induction keys with
  | nil => rfl
  | cons key rest ih =>
    rw [List.forall_mem_cons] at idle
    rw [List.foldl_cons, idle.1, ih idle.2]

/-- A change of another key may come before the steps. -/
theorem adjust_foldl (keys : List String) (commutes : ∀ other ∈ keys, ∀ members,
      adjust key f (step members other) = step (adjust key f members) other) :
    adjust key f (keys.foldl step members) = keys.foldl step (adjust key f members) := by
  induction keys generalizing members with
  | nil => rfl
  | cons other rest ih =>
    rw [List.forall_mem_cons] at commutes
    rw [List.foldl_cons, List.foldl_cons, ih commutes.2, commutes.1]

end

end Json
end Foundation
