import Mathlib.Data.List.Basic

/-! Lines of a growing sequence. A line is what ends in the separator, with the separator.
What follows the last one is open: a later piece may continue it. -/

namespace Foundation
namespace Lines
variable {α : Type*} [DecidableEq α] (sep : α)

/-- The lines and the open rest. -/
def split : List α → List (List α) × List α
  | [] => ([], [])
  | head :: tail =>
    if head = sep then ([head] :: (split tail).1, (split tail).2)
    else match (split tail).1 with
      | [] => ([], head :: (split tail).2)
      | first :: others => ((head :: first) :: others, (split tail).2)

def complete (text : List α) : List (List α) :=
  (split sep text).1

def rest (text : List α) : List α :=
  (split sep text).2

/-- What a reader takes for the lines of a text: at the end the open rest is one of them. -/
def pieces (text : List α) : List (List α) :=
  complete sep text ++ if rest sep text = [] then [] else [rest sep text]

variable {sep} {text later : List α}

/-- A later piece only continues the open rest. -/
theorem split_append : split sep (text ++ later) =
    (complete sep text ++ complete sep (rest sep text ++ later), rest sep (rest sep text ++ later)) := by
  induction text with
  | nil => rfl
  | cons head tail ih =>
    by_cases ends : head = sep
    · simp only [List.cons_append, complete, rest, split, ends, if_true, ih]
    · cases lines : (split sep tail).1 with
      | nil =>
        have none : complete sep tail = [] := lines
        rw [none, List.nil_append] at ih
        have same : split sep (tail ++ later) = split sep (rest sep tail ++ later) := ih
        simp only [List.cons_append, complete, rest, split, ends, if_false, lines, same, List.nil_append]
      | cons first others =>
        have some : complete sep tail = first :: others := lines
        rw [some] at ih
        simp only [List.cons_append, complete, rest, split, ends, if_false, lines, ih]

/-- A separator ends the first line. -/
theorem complete_line {line : List α} (plain : sep ∉ line) :
    complete sep (line ++ sep :: later) = (line ++ [sep]) :: complete sep later := by
  induction line with
  | nil => simp only [List.nil_append, complete, split, if_true]
  | cons head tail ih =>
    rw [List.mem_cons, not_or] at plain
    have shorter := ih plain.2
    unfold complete at shorter ⊢
    simp only [List.cons_append, split, Ne.symm plain.1, if_false, shorter]

theorem rest_line {line : List α} (plain : sep ∉ line) : rest sep (line ++ sep :: later) = rest sep later := by
  induction line with
  | nil => simp only [List.nil_append, rest, split, if_true]
  | cons head tail ih =>
    rw [List.mem_cons, not_or] at plain
    have shorter := ih plain.2
    have some : complete sep (tail ++ sep :: later) = (tail ++ [sep]) :: complete sep later := complete_line plain.2
    unfold rest complete at *
    rw [List.cons_append, split, if_neg (Ne.symm plain.1), some, ← shorter]

/-- Without a separator a text is open. -/
theorem split_plain (plain : sep ∉ text) : split sep text = ([], text) := by
  induction text with
  | nil => rfl
  | cons head tail ih =>
    rw [List.mem_cons, not_or] at plain
    rw [split, if_neg (Ne.symm plain.1), ih plain.2]

theorem complete_append :
    complete sep (text ++ later) = complete sep text ++ complete sep (rest sep text ++ later) := by
  rw [complete, split_append]

theorem rest_append : rest sep (text ++ later) = rest sep (rest sep text ++ later) := by
  rw [rest, split_append]

/-- Behind a line end the later text has its own lines. -/
theorem complete_append_closed (closed : rest sep text = []) :
    complete sep (text ++ later) = complete sep text ++ complete sep later := by
  rw [complete_append, closed, List.nil_append]

theorem pieces_closed (closed : rest sep text = []) : pieces sep text = complete sep text := by
  rw [pieces, if_pos closed, List.append_nil]

theorem pieces_nil : pieces sep [] = [] := rfl

theorem pieces_line {line : List α} (plain : sep ∉ line) :
    pieces sep (line ++ sep :: later) = (line ++ [sep]) :: pieces sep later := by
  rw [pieces, complete_line plain, rest_line plain]
  rfl

theorem pieces_plain (plain : sep ∉ text) (some : text ≠ []) : pieces sep text = [text] := by
  rw [pieces, complete, rest, split_plain plain]
  exact if_neg some

/-- Nothing of the text is lost in its lines. -/
theorem flatten_split : (complete sep text).flatten ++ rest sep text = text := by
  induction text with
  | nil => rfl
  | cons head tail ih =>
    by_cases ends : head = sep
    · simp only [complete, rest, split, ends, if_true, List.flatten_cons, List.cons_append, List.nil_append]
      exact congrArg _ ih
    · cases lines : (split sep tail).1 with
      | nil =>
        simp only [complete, rest, lines, List.flatten_nil, List.nil_append] at ih
        simp only [complete, rest, split, ends, if_false, lines, List.flatten_nil, List.nil_append, ih]
      | cons first others =>
        simp only [complete, rest, lines, List.flatten_cons, List.append_assoc] at ih
        simp only [complete, rest, split, ends, if_false, lines, List.flatten_cons, List.append_assoc,
          List.cons_append, ih]

theorem flatten_pieces : (pieces sep text).flatten = text := by
  unfold pieces
  split
  next closed => rw [List.append_nil, ← List.append_nil (complete sep text).flatten, ← closed, flatten_split]
  next => rw [List.flatten_append, List.flatten_singleton, flatten_split]

end Lines
end Foundation
