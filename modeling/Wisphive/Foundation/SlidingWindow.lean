import Mathlib.Data.List.Induction

/-! Times admitted one after the other, where each looks back over the window that ends with it. -/

namespace Foundation
namespace SlidingWindow
/-- The times that are less than a window before now. -/
def recent (window now : Nat) (times : List Nat) : List Nat :=
  times.filter fun time => now - time < window

/-- Every time was admitted when fewer than the limit were recent. -/
inductive Admitted (limit window : Nat) : List Nat → Prop where
  | nil : Admitted limit window []
  | snoc {times time} (earlier : Admitted limit window times) (latest : ∀ other ∈ times, other ≤ time)
      (room : (recent window time times).length < limit) : Admitted limit window (times ++ [time])

/-- The times in the window that begins at a start. -/
def within (window start : Nat) (times : List Nat) : List Nat :=
  times.filter fun time => start ≤ time ∧ time < start + window

variable {limit window start now time : Nat} {times : List Nat}

theorem recent_append {first later : List Nat} :
    recent window now (first ++ later) = recent window now first ++ recent window now later :=
  List.filter_append ..

/-- What is recent now was recent before. -/
theorem recent_recent (earlier : now ≤ time) : recent window time (recent window now times) = recent window time times := by
  rw [recent, recent, List.filter_filter]
  apply List.filter_congr
  intro other _
  rw [Bool.and_eq_left_iff_imp, decide_eq_true_eq, decide_eq_true_eq]
  omega

/-- A window that holds the latest time holds only recent ones beside it. -/
theorem within_length_le (latest : ∀ other ∈ times, other ≤ time) (holds : start ≤ time ∧ time < start + window) :
    (within window start times).length ≤ (recent window time times).length := by
  rw [within, recent, ← List.countP_eq_length_filter, ← List.countP_eq_length_filter]
  apply List.countP_mono_left
  intro other member inside
  have order := latest other member
  rw [decide_eq_true_eq] at inside ⊢
  omega

theorem Admitted.within_le (admitted : Admitted limit window times) : (within window start times).length ≤ limit := by
  induction admitted with
  | nil => exact Nat.zero_le _
  | @snoc times time _ latest room ih =>
    have parts : within window start (times ++ [time]) = within window start times ++ within window start [time] :=
      List.filter_append ..
    rw [parts, List.length_append]
    by_cases holds : start ≤ time ∧ time < start + window
    · have one : (within window start [time]).length ≤ 1 := List.length_filter_le ..
      have fewer := within_length_le latest holds
      omega
    · have none : within window start [time] = [] := by simpa [within] using holds
      rw [none]
      exact ih

end SlidingWindow
end Foundation
