import Mathlib.Data.List.Chain

/-! Copies of a key that follow reports about it: a join adds a copy, a leave removes them
all. A copy of the key's presence that is taken in the middle of the reports agrees with
them unless the only report still to come is the join that it shows already. -/

namespace Foundation

/-- A report about one key. -/
inductive Report where
  | joined
  | left
  deriving DecidableEq, Repr

namespace Presence
variable {present : Bool} {report : Report} {reports earlier later : List Report}

/-- The copies after the reports. -/
def tally (copies : Nat) : List Report → Nat
  | [] => copies
  | .joined :: rest => tally (copies + 1) rest
  | .left :: rest => tally 0 rest

/-- A key that joins also leaves. -/
def Leaves (reports : List Report) : Prop :=
  .joined ∈ reports → .left ∈ reports

instance (reports : List Report) : Decidable (Leaves reports) :=
  inferInstanceAs (Decidable (_ → _))

theorem tally_append (copies : Nat) : tally copies (earlier ++ later) = tally (tally copies earlier) later := by
  induction earlier generalizing copies with
  | nil => rfl
  | cons report rest ih => cases report <;> exact ih _

/-- Reports that end with the key as it is. A key that is there does not join. -/
structure Tracks (present : Bool) (reports : List Report) : Prop where
  apart : reports.IsChain fun first second => ¬ (first = .joined ∧ second = .joined)
  last : ∀ report ∈ reports.getLast?, (report = .joined ↔ present = true)

theorem Tracks.nil : Tracks present [] :=
  ⟨.nil, fun _ missing => (by cases missing)⟩

theorem Tracks.suffix (tracks : Tracks present (earlier ++ later)) : Tracks present later := by
  refine ⟨tracks.apart.right_of_append, fun report found => tracks.last report ?_⟩
  rw [List.getLast?_append, Option.mem_def.mp found, Option.some_or]
  rfl

theorem Tracks.snoc (chain : (reports ++ [report]).IsChain fun first second => ¬ (first = .joined ∧ second = .joined))
    (agrees : report = .joined ↔ present = true) : Tracks present (reports ++ [report]) := by
  refine ⟨chain, fun last found => ?_⟩
  rw [List.getLast?_concat, Option.mem_some_iff] at found
  exact found ▸ agrees

/-- A key that was not there joins. -/
theorem Tracks.join (tracks : Tracks false reports) : Tracks true (reports ++ [.joined]) := by
  refine .snoc (List.isChain_append.mpr ⟨tracks.apart, .singleton _, fun last found next first both => ?_⟩) (by simp)
  exact absurd ((tracks.last last found).mp both.1) (by simp)

theorem Tracks.leave (tracks : Tracks present reports) : Tracks false (reports ++ [.left]) := by
  refine .snoc (List.isChain_append.mpr ⟨tracks.apart, .singleton _, fun last found next first both => ?_⟩) (by simp)
  rw [List.head?_cons, Option.mem_some_iff] at first
  rw [← first] at both
  cases both.2

/-- One more leave is harmless where the key is not there, or is still to join. -/
theorem Tracks.insert_left (tracks : Tracks present (earlier ++ later)) (settled : present = true → .joined ∈ later) :
    Tracks present (earlier ++ .left :: later) := by
  obtain ⟨before, after, _⟩ := List.isChain_append.mp tracks.apart
  refine ⟨List.isChain_append.mpr ⟨before, ?_, fun last found next first both => ?_⟩, fun report found => ?_⟩
  · exact List.isChain_cons.mpr ⟨fun next first both => (by cases both.1), after⟩
  · rw [List.head?_cons, Option.mem_some_iff] at first
    rw [← first] at both
    cases both.2
  · cases later with
    | nil =>
      rw [List.getLast?_append, List.getLast?_singleton, Option.some_or, Option.mem_some_iff] at found
      rw [← found]
      refine ⟨fun other => (by cases other), fun there => ?_⟩
      cases settled there
    | cons next rest =>
      refine tracks.last report ?_
      rw [List.getLast?_append] at found ⊢
      rwa [List.getLast?_cons_cons] at found

/-- Reports without a leave are at most one join. -/
theorem Tracks.without_left (tracks : Tracks present reports) (stays : .left ∉ reports) :
    reports = [] ∨ reports = [.joined] ∧ present = true := by
  match reports with
  | [] => exact .inl rfl
  | [.joined] => exact .inr ⟨rfl, (tracks.last .joined rfl).mp rfl⟩
  | .left :: _ => exact absurd (List.mem_cons_self ..) stays
  | .joined :: .left :: _ => exact absurd (List.mem_cons_of_mem _ (List.mem_cons_self ..)) stays
  | .joined :: .joined :: _ => exact absurd ⟨rfl, rfl⟩ (List.isChain_cons_cons.mp tracks.apart).1

/-- A leave forgets what was there before. -/
theorem Tracks.tally_of_left (tracks : Tracks present reports) (leaves : .left ∈ reports) (copies : Nat) :
    tally copies reports = present.toNat := by
  induction reports generalizing copies with
  | nil => cases leaves
  | cons report rest ih =>
    have remaining : Tracks present rest := @Tracks.suffix present [report] rest tracks
    by_cases later : .left ∈ rest
    · cases report <;> exact ih remaining later _
    · have first : report = .left := by
        rcases List.mem_cons.mp leaves with same | member
        · exact same.symm
        · exact absurd member later
      subst first
      rcases remaining.without_left later with rfl | ⟨rfl, there⟩
      · have absent := tracks.last .left rfl
        cases present
        · rfl
        · cases absent.mpr rfl
      · rw [there]
        rfl

/-- Without a copy before them, the reports lead to the key as it is if it is to join. -/
theorem Tracks.tally_absent (tracks : Tracks present reports) (settled : present = true → .joined ∈ reports) :
    tally 0 reports = present.toNat := by
  by_cases leaves : .left ∈ reports
  · exact tracks.tally_of_left leaves 0
  · rcases tracks.without_left leaves with rfl | ⟨rfl, there⟩
    · cases present
      · rfl
      · cases settled rfl
    · rw [there]
      rfl

/-- A copy of the key as it is now agrees with the reports unless the join is all of them. -/
theorem Tracks.tally_copy (tracks : Tracks present reports) (settled : present = true → Leaves reports) :
    tally present.toNat reports = present.toNat := by
  by_cases leaves : .left ∈ reports
  · exact tracks.tally_of_left leaves _
  · rcases tracks.without_left leaves with rfl | ⟨rfl, there⟩
    · rfl
    · exact absurd (settled there (List.mem_singleton.mpr rfl)) leaves

end Presence
end Foundation
