import Mathlib.Data.List.Infix

/-! Occurrences of a mark in texts: in a text around a separator that the mark does not have, and
in a text whose characters are escaped one by one. -/

namespace Foundation
namespace Marks
variable {α : Type*} {mark text left right front : List α} {separator first : α} {escape : α → List α}

/-- The parts around the last separator. -/
theorem around_last {left' right' : List α} (absent : separator ∉ right) (absent' : separator ∉ right')
    (same : left ++ separator :: right = left' ++ separator :: right') : left = left' ∧ right = right' := by
  have inner {middle first second : List α} (absent : separator ∉ first)
      (equal : separator :: first = middle ++ separator :: second) : middle = [] := by
    cases middle with
    | nil => rfl
    | cons item middle =>
      rw [List.cons_append] at equal
      rw [(List.cons.inj equal).2] at absent
      exact absurd (List.mem_append_right _ (List.mem_cons_self ..)) absent
  rcases List.append_eq_append_iff.mp same with ⟨middle, longer, rest⟩ | ⟨middle, longer, rest⟩
  · have none := inner absent rest
    subst none
    exact ⟨(longer.trans (List.append_nil _)).symm, (List.cons.inj rest).2⟩
  · have none := inner absent' rest
    subst none
    exact ⟨longer.trans (List.append_nil _), (List.cons.inj rest).2.symm⟩

theorem prefix_before (absent : separator ∉ mark) : mark <+: left ++ separator :: right ↔ mark <+: left := by
  refine ⟨fun begins => ?_, fun begins => begins.trans (List.prefix_append ..)⟩
  rcases Nat.lt_or_ge left.length mark.length with long | short
  · exfalso
    apply absent
    have whole : left ++ [separator] <+: left ++ separator :: right := ⟨right, (List.append_cons ..).symm⟩
    have inside := List.prefix_of_prefix_length_le whole begins (by rwa [List.length_append, List.length_singleton])
    exact inside.subset (List.mem_append_right _ List.mem_cons_self)
  · exact List.prefix_of_prefix_length_le begins (List.prefix_append ..) short

/-- A mark without the separator stands on one side of it. -/
theorem infix_around (nonempty : mark ≠ []) (absent : separator ∉ mark) :
    mark <:+: left ++ separator :: right ↔ mark <:+: left ∨ mark <:+: right := by
  constructor
  · intro inside
    induction left with
    | nil =>
      rcases List.infix_cons_iff.mp inside with begins | later
      · rw [← List.nil_append (separator :: right), prefix_before absent, List.prefix_nil] at begins
        exact absurd begins nonempty
      · exact .inr later
    | cons item left ih =>
      rw [List.cons_append] at inside
      rcases List.infix_cons_iff.mp inside with begins | later
      · rw [← List.cons_append, prefix_before absent] at begins
        exact .inl begins.isInfix
      · exact (ih later).imp_left fun found => List.infix_cons_iff.mpr (.inr found)
  · rintro (before | behind)
    · exact before.trans (List.prefix_append ..).isInfix
    · exact behind.trans ((List.suffix_cons ..).trans (List.suffix_append ..)).isInfix

/-- A mark does not begin in a text without its first character. -/
theorem infix_behind {mark : List α} (absent : first ∉ front) : first :: mark <:+: front ++ text ↔ first :: mark <:+: text := by
  induction front with
  | nil => rw [List.nil_append]
  | cons item front ih =>
    rw [List.cons_append, List.infix_cons_iff, ih fun member => absent (List.mem_cons_of_mem _ member)]
    refine or_iff_right fun begins => ?_
    exact absent (List.mem_cons.mpr (.inl (List.cons_prefix_cons.mp begins).1))

/-- The escape leaves the characters of the mark as they are, and an escape sequence begins with
none of them and does not hold the first one. -/
structure Spares (escape : α → List α) (mark : List α) : Prop where
  plain : ∀ item ∈ mark, escape item = [item]
  other : ∀ item, escape item = [item] ∨
    ∃ lead rest, escape item = lead :: rest ∧ lead ∉ mark ∧ ∀ first ∈ mark.head?, first ∉ rest

theorem Spares.begins {part : List α} (spares : Spares escape mark) (inside : ∀ item ∈ part, item ∈ mark)
    (begins : part <+: text.flatMap escape) : part <+: text := by
  induction text generalizing part with
  | nil => exact begins
  | cons item text ih =>
    cases part with
    | nil => exact List.nil_prefix
    | cons first part =>
      rw [List.flatMap_cons] at begins
      rcases spares.other item with same | ⟨lead, rest, shape, foreign, _⟩
      · rw [same, List.singleton_append] at begins
        obtain ⟨rfl, later⟩ := List.cons_prefix_cons.mp begins
        exact List.cons_prefix_cons.mpr ⟨rfl, ih (fun other member => inside other (List.mem_cons_of_mem _ member)) later⟩
      · rw [shape, List.cons_append] at begins
        obtain ⟨rfl, _⟩ := List.cons_prefix_cons.mp begins
        exact absurd (inside first List.mem_cons_self) foreign

/-- A mark that the escape spares is in the escaped text where it was in the text. -/
theorem Spares.infix_iff (spares : Spares escape mark) (nonempty : mark ≠ []) :
    mark <:+: text.flatMap escape ↔ mark <:+: text := by
  constructor
  · intro inside
    induction text with
    | nil => exact inside
    | cons item text ih =>
      rw [List.flatMap_cons] at inside
      rcases spares.other item with same | ⟨lead, rest, shape, foreign, later⟩
      · rw [same, List.singleton_append] at inside
        rcases List.infix_cons_iff.mp inside with begins | behind
        · refine (spares.begins (fun _ member => member) ?_).isInfix
          rwa [List.flatMap_cons, same, List.singleton_append]
        · exact List.infix_cons_iff.mpr (.inr (ih behind))
      · obtain ⟨first, tail, rfl⟩ := List.exists_cons_of_ne_nil nonempty
        have absent : first ∉ escape item := by
          rw [shape, List.mem_cons]
          rintro (rfl | inner)
          · exact foreign List.mem_cons_self
          · exact later first rfl inner
        rw [infix_behind absent] at inside
        exact List.infix_cons_iff.mpr (.inr (ih inside))
  · rintro ⟨front, back, rfl⟩
    have kept : mark.flatMap escape = mark := by
      have each : ∀ part : List α, (∀ item ∈ part, escape item = [item]) → part.flatMap escape = part := by
        intro part same
        induction part with
        | nil => rfl
        | cons item part ih =>
          rw [List.flatMap_cons, same item List.mem_cons_self, ih fun other member => same other (List.mem_cons_of_mem _ member)]
          rfl
      exact each mark spares.plain
    rw [List.flatMap_append, List.flatMap_append, kept]
    exact ⟨_, _, rfl⟩

end Marks
end Foundation
