import Mathlib.Data.List.Basic

/-! Computations that ask a world and keep a log of what they have read there. One that is
repeated in a world that answers as the log says comes to the same value. -/

namespace Foundation

abbrev Recording (World Entry Error : Type) := ReaderT World (StateT (List Entry) (Except Error))

namespace Recording
variable {World Entry Error α β Item State : Type}

/-- A question whose answer is not logged. -/
def ask (question : World → Except Error α) : Recording World Entry Error α :=
  fun world log => (question world).map (·, log)

def fail (error : Error) : Recording World Entry Error α :=
  fun _ _ => .error error

/-- The same computation under another name for its errors. -/
def relabel (rename : Error → Error) (program : Recording World Entry Error α) : Recording World Entry Error α :=
  fun world log => (program world log).mapError rename

/-- What comes out in the one world comes out in the other, where it answers `again` as it was
logged. What was logged before makes no difference. -/
def Replays (again : Entry → Prop) (world other : World) (program : Recording World Entry Error α) : Prop :=
  ∀ log value after, program world log = .ok (value, after) →
    ∃ added, after = log ++ added ∧
      ((∀ entry ∈ added, again entry) → ∀ start, ∃ finish, program other start = .ok (value, finish))

variable {again : Entry → Prop} {world other : World} {program : Recording World Entry Error α} {value : α}

theorem replays_pure (value : α) : Replays again world other (pure value : Recording World Entry Error α) := by
  intro log result after done
  cases done
  exact ⟨[], (List.append_nil log).symm, fun _ start => ⟨start, rfl⟩⟩

theorem replays_fail (error : Error) : Replays again world other (fail error : Recording World Entry Error α) :=
  fun _ _ _ done => nomatch done

theorem replays_ask {question : World → Except Error α} (same : question world = question other) :
    Replays again world other (ask question : Recording World Entry Error α) := by
  intro log result after done
  cases answer : question world with
  | error error =>
    rw [ask, answer] at done
    cases done
  | ok value =>
    rw [ask, answer] at done
    cases done
    refine ⟨[], (List.append_nil log).symm, fun _ start => ⟨start, ?_⟩⟩
    rw [ask, ← same, answer]
    rfl

theorem bind_ok {next : α → Recording World Entry Error β} {result : β} {log after : List Entry}
    (done : (program >>= next) world log = .ok (result, after)) :
    ∃ value middle, program world log = .ok (value, middle) ∧ next value world middle = .ok (result, after) := by
  cases before : program world log with
  | error error =>
    have failed : (program >>= next) world log = .error error := by
      show (program world log >>= _) = _
      rw [before]
      rfl
    rw [failed] at done
    cases done
  | ok reached =>
    refine ⟨reached.1, reached.2, rfl, ?_⟩
    rw [← done]
    show _ = (program world log >>= _)
    rw [before]
    rfl

theorem bind_of_ok {next : α → Recording World Entry Error β} {log middle : List Entry}
    (before : program world log = .ok (value, middle)) : (program >>= next) world log = next value world middle := by
  show (program world log >>= _) = _
  rw [before]
  rfl

/-- What no step changes, a fold does not change. -/
theorem foldlM_keeps {Part : Type} {part : State → Part} {step : State → Item → Recording World Entry Error State}
    {items : List Item} {state final : State} {log after : List Entry}
    (steps : ∀ state item log next after, step state item world log = .ok (next, after) → part next = part state)
    (done : items.foldlM step state world log = .ok (final, after)) : part final = part state := by
  induction items generalizing state log with
  | nil =>
    cases done
    rfl
  | cons item items ih =>
    rw [List.foldlM_cons] at done
    obtain ⟨next, middle, first, rest⟩ := bind_ok done
    exact (ih rest).trans (steps state item log next middle first)

theorem replays_bind {next : α → Recording World Entry Error β} (first : Replays again world other program)
    (rest : ∀ value, Replays again world other (next value)) : Replays again world other (program >>= next) := by
  intro log result after done
  obtain ⟨value, middle, before, onward⟩ := bind_ok done
  obtain ⟨early, rfl, replay⟩ := first log value middle before
  obtain ⟨late, rfl, later⟩ := rest value _ result after onward
  refine ⟨early ++ late, List.append_assoc .., fun holds start => ?_⟩
  obtain ⟨between, found⟩ := replay (fun entry member => holds entry (List.mem_append_left _ member)) start
  obtain ⟨finish, ended⟩ := later (fun entry member => holds entry (List.mem_append_right _ member)) between
  exact ⟨finish, (bind_of_ok found).trans ended⟩

theorem relabel_ok {rename : Error → Error} {reached : α × List Entry} {log : List Entry} :
    relabel rename program world log = .ok reached ↔ program world log = .ok reached := by
  rw [relabel]
  cases program world log with
  | error error => exact ⟨nofun, nofun⟩
  | ok found => exact Iff.rfl

theorem replays_relabel (rename : Error → Error) (replays : Replays again world other program) :
    Replays again world other (relabel rename program) := by
  intro log value after done
  obtain ⟨added, same, replay⟩ := replays log value after (relabel_ok.mp done)
  refine ⟨added, same, fun holds start => ?_⟩
  obtain ⟨finish, ended⟩ := replay holds start
  exact ⟨finish, relabel_ok.mpr ended⟩

theorem replays_foldlM {step : State → Item → Recording World Entry Error State} {items : List Item}
    (steps : ∀ state, ∀ item ∈ items, Replays again world other (step state item)) (state : State) :
    Replays again world other (items.foldlM step state) := by
  induction items generalizing state with
  | nil => exact replays_pure state
  | cons item items ih =>
    rw [List.foldlM_cons]
    exact replays_bind (steps state item List.mem_cons_self) fun next =>
      ih (fun state item member => steps state item (List.mem_cons_of_mem _ member)) next

end Recording
end Foundation
