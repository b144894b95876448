import Mathlib.Data.List.Infix

/-! Text search without regard to case. A fold gives the letters that count as the same one
value, and patterns have a wildcard for any text and one for any character. -/

namespace Foundation
namespace TextPattern

/-- The text stands somewhere in the other one, up to a fold. -/
def Within (fold : Char → Char) (text other : List Char) : Prop :=
  text.map fold <:+: other.map fold

instance (fold : Char → Char) (text other : List Char) : Decidable (Within fold text other) :=
  inferInstanceAs (Decidable (_ <:+: _))

/-- `LIKE`. The case of ASCII letters does not count. -/
def like : (pattern text : List Char) → Bool
  | [], text => text.isEmpty
  | char :: pattern, text =>
    if char = '%' then text.tails.any fun rest => like pattern rest
    else match text with
      | [] => false
      | first :: rest => (char = '_' || char.toLower = first.toLower) && like pattern rest

/-- A character that stands for itself. -/
def literal (char : Char) : Prop :=
  char ≠ '%' ∧ char ≠ '_'

instance (char : Char) : Decidable (literal char) :=
  inferInstanceAs (Decidable (_ ∧ _))

/-- A text in which no character is a wildcard, and which a pattern matches. -/
def instantiate (pattern : List Char) : List Char :=
  pattern.map fun char => if literal char then char else 'a'

theorem like_any (pattern text : List Char) :
    like ('%' :: pattern) text = true ↔ ∃ rest, rest <:+ text ∧ like pattern rest = true := by
  simp only [like, if_true, List.any_eq_true, List.mem_tails]

/-- Behind literal characters, the pattern goes on behind a prefix that is the same up to case. -/
theorem like_literal {chars : List Char} (plain : ∀ char ∈ chars, literal char) (pattern text : List Char) :
    like (chars ++ pattern) text = true ↔
      ∃ first rest, text = first ++ rest ∧ first.map Char.toLower = chars.map Char.toLower ∧ like pattern rest = true := by
  induction chars generalizing text with
  | nil =>
    constructor
    · exact fun holds => ⟨[], text, rfl, rfl, holds⟩
    · rintro ⟨first, rest, rfl, same, holds⟩
      rw [List.map_eq_nil_iff.mp same]
      exact holds
  | cons char chars ih =>
    obtain ⟨noText, noCharacter⟩ := plain char (List.mem_cons_self ..)
    have later := fun text => ih (fun char member => plain char (List.mem_cons_of_mem _ member)) text
    rw [List.cons_append]
    cases text with
    | nil =>
      simp only [like, if_neg noText]
      refine ⟨fun impossible => (Bool.false_ne_true impossible).elim, ?_⟩
      rintro ⟨first, rest, split, same, _⟩
      rw [(List.append_eq_nil_iff.mp split.symm).1] at same
      cases same
    | cons found text =>
      simp only [like, if_neg noText, noCharacter, decide_false, Bool.false_or, Bool.and_eq_true, decide_eq_true_eq]
      rw [later]
      constructor
      · rintro ⟨equal, first, rest, rfl, same, holds⟩
        exact ⟨found :: first, rest, rfl, by rw [List.map_cons, List.map_cons, equal, same], holds⟩
      · rintro ⟨first, rest, split, same, holds⟩
        cases first with
        | nil => cases same
        | cons other first =>
          cases split
          rw [List.map_cons, List.map_cons, List.cons.injEq] at same
          exact ⟨same.1.symm, first, rest, rfl, same.2, holds⟩

/-- A text without wildcards between two wildcards matches what it stands in. -/
theorem like_within {chars : List Char} (plain : ∀ char ∈ chars, literal char) (text : List Char) :
    like ('%' :: (chars ++ ['%'])) text = true ↔ Within Char.toLower chars text := by
  rw [like_any, Within, List.infix_map_iff]
  constructor
  · rintro ⟨behind, suffix, holds⟩
    obtain ⟨first, rest, rfl, same, _⟩ := (like_literal plain ['%'] behind).mp holds
    exact ⟨first, List.infix_iff_prefix_suffix.mpr ⟨_, List.prefix_append first rest, suffix⟩, same.symm⟩
  · rintro ⟨first, stands, same⟩
    obtain ⟨behind, ⟨rest, rfl⟩, suffix⟩ := List.infix_iff_prefix_suffix.mp stands
    refine ⟨_, suffix, (like_literal plain ['%'] _).mpr ⟨first, rest, rfl, same.symm, ?_⟩⟩
    exact (like_any [] rest).mpr ⟨[], List.nil_suffix, rfl⟩

/-- A pattern matches its instance, also if any text may follow. -/
theorem like_instantiate (pattern rest : List Char) (holds : like rest [] = true) :
    like (pattern ++ rest) (instantiate pattern) = true := by
  induction pattern with
  | nil => exact holds
  | cons char pattern ih =>
    rw [List.cons_append, instantiate, List.map_cons, ← instantiate]
    by_cases wild : char = '%'
    · subst wild
      exact (like_any _ _).mpr ⟨_, List.suffix_cons _ _, ih⟩
    · simp only [like, if_neg wild]
      refine Bool.and_eq_true_iff.mpr ⟨?_, ih⟩
      by_cases one : char = '_'
      · rw [one]
        rfl
      · rw [if_pos ⟨wild, one⟩, decide_eq_true (rfl : char.toLower = char.toLower), Bool.or_true]

/-- A text that is no longer has the other one in it only as a whole. -/
theorem Within.eq {fold : Char → Char} {text other : List Char} (stands : Within fold text other)
    (short : other.length ≤ text.length) : text.map fold = other.map fold := by
  apply List.IsInfix.eq_of_length_le stands
  rwa [List.length_map, List.length_map]

/-- A pattern that is not literal does not stand in its instance. -/
theorem not_within_instantiate {pattern : List Char} {char : Char} (member : char ∈ pattern) (wild : ¬ literal char) :
    ¬ Within Char.toLower pattern (instantiate pattern) := by
  intro stands
  have same := stands.eq (by rw [instantiate, List.length_map])
  rw [instantiate, List.map_map] at same
  have equal := List.map_inj_left.mp same char member
  rw [Function.comp_apply, if_neg wild] at equal
  rcases not_and_or.mp wild with any | one
  · rw [not_not.mp any] at equal
    revert equal
    decide
  · rw [not_not.mp one] at equal
    revert equal
    decide

/-- Two folds find a text alike if they tell its characters apart alike. -/
theorem within_iff {fold other : Char → Char} {text place : List Char}
    (alike : ∀ char ∈ text, ∀ found ∈ place, fold char = fold found ↔ other char = other found) :
    Within fold text place ↔ Within other text place := by
  have same {part : List Char} (inside : ∀ found ∈ part, found ∈ place) :
      text.map fold = part.map fold ↔ text.map other = part.map other := by
    induction text generalizing part with
    | nil => cases part <;> simp
    | cons char text ih =>
      cases part with
      | nil => simp
      | cons found part =>
        simp only [List.map_cons, List.cons.injEq]
        rw [alike char (List.mem_cons_self ..) found (inside found (List.mem_cons_self ..)),
          ih (fun char member => alike char (List.mem_cons_of_mem _ member))
            (fun found member => inside found (List.mem_cons_of_mem _ member))]
  rw [Within, Within, List.infix_map_iff, List.infix_map_iff]
  constructor
  · rintro ⟨part, stands, equal⟩
    exact ⟨part, stands, (same fun _ member => stands.subset member).mp equal⟩
  · rintro ⟨part, stands, equal⟩
    exact ⟨part, stands, (same fun _ member => stands.subset member).mpr equal⟩

end TextPattern
end Foundation
