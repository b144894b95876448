import Mathlib.Data.List.Basic

/-! Runs of a deterministic machine. An event is refused where the step returns
nothing, and a guard restricts the events that a run may take. -/

namespace Foundation

/-- A start state and what each event does. `none` refuses the event. -/
structure Machine (State Event : Type*) where
  start : State
  step : State → Event → Option State

namespace Machine
variable {State Event : Type*} {machine : Machine State Event} {meets : State → Event → Prop}

/-- The states of runs whose every event meets the guard in the state before it. -/
inductive Reachable (machine : Machine State Event) (meets : State → Event → Prop) : State → Prop where
  | start : Reachable machine meets machine.start
  | step {before event after} (reached : Reachable machine meets before) (met : meets before event)
      (taken : machine.step before event = some after) : Reachable machine meets after

/-- Every event is allowed. -/
def free (_ : State) (_ : Event) : Prop := True

instance (state : State) (event : Event) : Decidable (free state event) := .isTrue trivial

/-- The state after a list of events, if none is refused and all meet the guard. -/
def run (machine : Machine State Event) (meets : State → Event → Prop)
    [∀ state event, Decidable (meets state event)] (state : State) : List Event → Option State
  | [] => some state
  | event :: rest =>
    if meets state event then machine.step state event >>= fun after => machine.run meets after rest else none

theorem run_free_nil {state : State} : machine.run free state [] = some state := rfl

theorem run_free_cons {state : State} {event : Event} {rest : List Event} :
    machine.run free state (event :: rest) = machine.step state event >>= fun after => machine.run free after rest :=
  if_pos trivial

theorem run_append [∀ state event, Decidable (meets state event)] {state : State} {first later : List Event} :
    machine.run meets state (first ++ later) =
      machine.run meets state first >>= fun middle => machine.run meets middle later := by
  induction first generalizing state with
  | nil => rfl
  | cons event rest ih =>
    rw [List.cons_append, Machine.run, Machine.run]
    split
    · simp only [ih, bind_assoc]
    · rfl

/-- Where no event is refused, a run that meets the guard is a fold. -/
theorem run_total [∀ state event, Decidable (meets state event)] {next : State → Event → State}
    (total : ∀ state event, machine.step state event = some (next state event)) {state : State} {events : List Event}
    (taken : (machine.run meets state events).isSome = true) :
    machine.run meets state events = some (events.foldl next state) := by
  induction events generalizing state with
  | nil => rfl
  | cons event rest ih =>
    rw [Machine.run] at taken ⊢
    split at taken
    · next met =>
      rw [total, Option.bind_eq_bind, Option.bind_some] at taken
      rw [if_pos met, total, Option.bind_eq_bind, Option.bind_some, ih taken]
      rfl
    · cases taken

/-- What every guarded event preserves, a run preserves. -/
theorem run_preserves [∀ state event, Decidable (meets state event)] (holds : State → Prop)
    (preserved : ∀ before event after, holds before → meets before event →
      machine.step before event = some after → holds after)
    {state after} {events : List Event} (initial : holds state)
    (taken : machine.run meets state events = some after) : holds after := by
  induction events generalizing state with
  | nil =>
    simp only [Machine.run, Option.some.injEq] at taken
    exact taken ▸ initial
  | cons event rest ih =>
    rw [Machine.run] at taken
    split at taken
    next met =>
      obtain ⟨next, first, later⟩ := Option.bind_eq_some_iff.mp taken
      exact ih (preserved state event next initial met first) later
    next => cases taken

theorem Reachable.run [∀ state event, Decidable (meets state event)] {state after} {events : List Event}
    (reached : Reachable machine meets state) (taken : machine.run meets state events = some after) :
    Reachable machine meets after :=
  run_preserves _ (fun _ _ _ reached met taken => reached.step met taken) reached taken

/-- Where each step stays good exactly if it meets the guard, so does a run. -/
theorem run_good_iff [∀ state event, Decidable (meets state event)] {kept good : State → Prop}
    (preserved : ∀ before event after, kept before → machine.step before event = some after → kept after)
    (exact : ∀ before event after, kept before → machine.step before event = some after →
      (good after ↔ good before ∧ meets before event))
    {state after} {events : List Event} (initial : kept state)
    (taken : machine.run free state events = some after) :
    good after ↔ good state ∧ machine.run meets state events = some after := by
  induction events generalizing state with
  | nil =>
    cases taken
    exact ⟨fun holds => ⟨holds, rfl⟩, fun both => both.1⟩
  | cons event rest ih =>
    rw [run_free_cons] at taken
    obtain ⟨next, first, later⟩ := Option.bind_eq_some_iff.mp taken
    rw [ih (preserved state event next initial first) later, exact state event next initial first, Machine.run]
    constructor
    · rintro ⟨⟨holds, met⟩, guarded⟩
      rw [if_pos met, first]
      exact ⟨holds, guarded⟩
    · rintro ⟨holds, guarded⟩
      split at guarded
      next met =>
        rw [first] at guarded
        exact ⟨⟨holds, met⟩, guarded⟩
      next => cases guarded

/-- A list of events that a guard allows is also taken without it. -/
theorem run_unguarded [∀ state event, Decidable (meets state event)] {state after} {events : List Event}
    (taken : machine.run meets state events = some after) : machine.run free state events = some after := by
  induction events generalizing state with
  | nil => exact taken
  | cons event rest ih =>
    rw [Machine.run] at taken
    split at taken
    · obtain ⟨next, first, later⟩ := Option.bind_eq_some_iff.mp taken
      rw [run_free_cons, first]
      exact ih later
    · cases taken

/-- A run whose every step brings the end nearer gets there, whatever the stream of events. -/
theorem run_settles {holds settled : State → Prop} (left : State → Nat) {events : Nat → Event}
    (nearer : ∀ state index, holds state → ¬ settled state →
      ∃ after, machine.step state (events index) = some after ∧ holds after ∧ left after < left state)
    {state : State} (initial : holds state) (index : Nat) :
    ∃ count after, machine.run free state ((List.range' index count).map events) = some after ∧ settled after := by
  by_cases ended : settled state
  · exact ⟨0, state, rfl, ended⟩
  · obtain ⟨next, taken, kept, less⟩ := nearer state index initial ended
    obtain ⟨count, after, later, ends⟩ := run_settles left nearer kept (index + 1)
    refine ⟨count + 1, after, ?_, ends⟩
    rw [List.range'_succ, List.map_cons, run_free_cons, taken]
    exact later
termination_by left state

/-- A guarded run is a run. -/
theorem Reachable.unguarded {state} (reached : Reachable machine meets state) : Reachable machine free state := by
  induction reached with
  | start => exact .start
  | step _ _ taken ih => exact ih.step trivial taken

/-- What holds at the start and survives every guarded event holds of every run. -/
theorem Reachable.invariant {holds : State → Prop} {state} (reached : Reachable machine meets state)
    (initial : holds machine.start)
    (preserved : ∀ before event after, holds before → meets before event →
      machine.step before event = some after → holds after) : holds state := by
  induction reached with
  | start => exact initial
  | step _ met taken ih => exact preserved _ _ _ ih met taken

end Machine
end Foundation
