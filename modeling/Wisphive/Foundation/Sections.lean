import Wisphive.Foundation.Ledger
import Wisphive.Foundation.Trace

/-! Critical sections of the threads of many processes. A section holds the mutex of its
process and one lock of all processes, and may be cut off at every step. -/

namespace Foundation

/-- How a step of a section ends. -/
inductive Outcome (Local Result Refusal : Type*) where
  | go (next : Local)
  | refuse (refusal : Refusal)
  | commit (result : Result)

/-- A section works on shared files in steps. What it meets on the way is its choice. -/
structure Section (Files Request Local Result Refusal Choice : Type*) where
  enter : Request → Local
  advance : Choice → Local → Files → Files × Outcome Local Result Refusal
  io : Refusal

namespace Section
variable {Files Request Local Result Refusal Choice : Type*}

structure Worker where
  process : Nat
  thread : Nat
  deriving DecidableEq, Repr

/-- Every process has one mutex for its threads. -/
def Guards (mutexes : Nat → Option Worker) (holding : Worker → Prop) : Prop :=
  ∀ process, Holds (mutexes process) fun worker => worker.process = process ∧ holding worker

namespace Guards
variable {mutexes : Nat → Option Worker} {holding after : Worker → Prop} {worker : Worker}

theorem same (guards : Guards mutexes holding) (kept : ∀ other, after other ↔ holding other) : Guards mutexes after :=
  fun process => (guards process).same fun other => and_congr_right' (kept other)

theorem grab (guards : Guards mutexes holding) (free : mutexes worker.process = none)
    (taken : ∀ other, after other ↔ other = worker ∨ holding other) :
    Guards (Function.update mutexes worker.process (some worker)) after := by
  intro process
  by_cases own : process = worker.process
  · subst own
    rw [Function.update_self]
    refine (free ▸ guards worker.process).grab fun other => ?_
    rw [taken, and_or_left]
    exact or_congr_left ⟨And.right, fun same => ⟨same ▸ rfl, same⟩⟩
  · rw [Function.update_of_ne own]
    refine (guards process).same fun other => and_congr_right fun place => ?_
    rw [taken]
    exact or_iff_right fun same => own (place.symm.trans (same ▸ rfl))

/-- Whoever held the mutex of a process has left it. -/
theorem clear (guards : Guards mutexes holding) {process : Nat} (gone : ∀ other, other.process = process → ¬ after other)
    (kept : ∀ other, other.process ≠ process → (after other ↔ holding other)) :
    Guards (Function.update mutexes process none) after := by
  intro own
  by_cases same : own = process
  · subst same
    rw [Function.update_self]
    exact fun other => ⟨fun none => absurd none (Option.some_ne_none _).symm, fun held => absurd held.2 (gone other held.1)⟩
  · rw [Function.update_of_ne same]
    exact (guards own).same fun other => and_congr_right fun place => kept other (place ▸ same)

theorem release (guards : Guards mutexes holding) (held : holding worker)
    (left : ∀ other, after other ↔ other ≠ worker ∧ holding other) :
    Guards (Function.update mutexes worker.process none) after := by
  refine guards.clear (fun other place still => ?_) fun other place => ?_
  · obtain ⟨apart, also⟩ := (left other).mp still
    have holder := ((guards worker.process) worker).mpr ⟨rfl, held⟩
    exact apart (Option.some.inj ((((guards worker.process) other).mpr ⟨place, also⟩).symm.trans holder))
  · rw [left]
    exact and_iff_right fun same => place (same ▸ rfl)

end Guards

/-- How far the call of a worker is. -/
inductive Phase (Request Local Result Refusal : Type*) where
  | idle
  | called (call : Nat) (request : Request)
  | guarded (call : Nat) (request : Request)
  | inside (call : Nat) (request : Request) (place : Local)
  | ended (call : Nat) (result : Except Refusal Result)
  | unlocked (call : Nat) (result : Except Refusal Result)

namespace Phase

/-- The worker holds the mutex of its process. -/
def guards : Phase Request Local Result Refusal → Bool
  | .idle | .called .. => false
  | .guarded .. | .inside .. | .ended .. | .unlocked .. => true

/-- The worker holds the lock. -/
def locks : Phase Request Local Result Refusal → Bool
  | .idle | .called .. | .guarded .. | .unlocked .. => false
  | .inside .. | .ended .. => true

/-- The call, and whether it has taken effect. -/
def flight : Phase Request Local Result Refusal → Option (Nat × Bool)
  | .idle => none
  | .called call _ | .guarded call _ | .inside call _ _ => some (call, false)
  | .ended call result | .unlocked call result => some (call, result.isOk)

/-- The place of a worker inside of its section. -/
def place : Phase Request Local Result Refusal → Option (Request × Local)
  | .inside _ request place => some (request, place)
  | _ => none

end Phase

/-- The files, who holds what, and beside them every commit and every result so far. -/
structure State (Files Request Local Result Refusal : Type*) where
  shared : Files
  mutexes : Nat → Option Worker
  lock : Option Worker
  phases : Worker → Phase Request Local Result Refusal
  calls : Nat
  committed : List (Nat × Request × Result)
  results : List (Nat × Except Refusal Result)

inductive Event (Request Choice : Type*) where
  | call (worker : Worker) (request : Request)
  | enter (worker : Worker)
  | take (worker : Worker)
  | advance (worker : Worker) (choice : Choice)
  | fail (worker : Worker)
  | unlock (worker : Worker)
  | leave (worker : Worker)
  | panic (worker : Worker)
  | kill (process : Nat)

namespace State
variable (state : State Files Request Local Result Refusal)

def setPhase (worker : Worker) (phase : Phase Request Local Result Refusal) : State Files Request Local Result Refusal :=
  { state with phases := Function.update state.phases worker phase }

def setMutex (process : Nat) (holder : Option Worker) : State Files Request Local Result Refusal :=
  { state with mutexes := Function.update state.mutexes process holder }

end State

variable (code : Section Files Request Local Result Refusal Choice)

/-- A mutex and the lock are taken where they are free. An error of the lock file ends the
call, and a thread that panics and a process that dies let go of what they hold. -/
def step (state : State Files Request Local Result Refusal) :
    Event Request Choice → Option (State Files Request Local Result Refusal)
  | .call worker request =>
    match state.phases worker with
    | .idle => some { state.setPhase worker (.called state.calls request) with calls := state.calls + 1 }
    | _ => none
  | .enter worker =>
    match state.phases worker, state.mutexes worker.process with
    | .called call request, none => some ((state.setPhase worker (.guarded call request)).setMutex worker.process (some worker))
    | _, _ => none
  | .take worker =>
    match state.phases worker, state.lock with
    | .guarded call request, none =>
      some { state.setPhase worker (.inside call request (code.enter request)) with lock := some worker }
    | _, _ => none
  | .advance worker choice =>
    match state.phases worker with
    | .inside call request place =>
      match code.advance choice place state.shared with
      | (files, .go next) => some { state.setPhase worker (.inside call request next) with shared := files }
      | (files, .refuse refusal) => some { state.setPhase worker (.ended call (.error refusal)) with shared := files }
      | (files, .commit result) =>
        some { state.setPhase worker (.ended call (.ok result)) with
          shared := files
          committed := state.committed ++ [(call, request, result)] }
    | _ => none
  | .fail worker =>
    match state.phases worker with
    | .guarded call _ => some (state.setPhase worker (.unlocked call (.error code.io)))
    | _ => none
  | .unlock worker =>
    match state.phases worker with
    | .ended call result => some { state.setPhase worker (.unlocked call result) with lock := none }
    | _ => none
  | .leave worker =>
    match state.phases worker with
    | .unlocked call result =>
      some { (state.setPhase worker .idle).setMutex worker.process none with results := state.results ++ [(call, result)] }
    | _ => none
  | .panic worker =>
    if (state.phases worker).guards then
      some { (state.setPhase worker .idle).setMutex worker.process none with lock := state.lock.filter (· ≠ worker) }
    else none
  | .kill process =>
    some { state.setMutex process none with
      phases := fun worker => if worker.process = process then .idle else state.phases worker
      lock := state.lock.filter (·.process ≠ process) }

def machine (files : Files) : Machine (State Files Request Local Result Refusal) (Event Request Choice) where
  start :=
    { shared := files
      mutexes := fun _ => none
      lock := none
      phases := fun _ => .idle
      calls := 0
      committed := []
      results := [] }
  step := code.step

variable {code} {files : Files} {state after : State Files Request Local Result Refusal} {event : Event Request Choice}
  {phases : Worker → Phase Request Local Result Refusal} {phase : Phase Request Local Result Refusal} {worker : Worker}
  {lock : Option Worker} {mutexes : Nat → Option Worker}

theorem update_same (holding : Phase Request Local Result Refusal → Bool) (kept : holding phase = holding (phases worker))
    (other : Worker) : holding (Function.update phases worker phase other) = true ↔ holding (phases other) = true := by
  by_cases same : other = worker
  · rw [same, Function.update_self, kept]
  · rw [Function.update_of_ne same]

theorem update_grab (holding : Phase Request Local Result Refusal → Bool) (held : holding phase = true) (other : Worker) :
    holding (Function.update phases worker phase other) = true ↔ other = worker ∨ holding (phases other) = true := by
  by_cases same : other = worker
  · rw [same, Function.update_self, held]
    simp
  · rw [Function.update_of_ne same, or_iff_right same]

theorem update_drop (holding : Phase Request Local Result Refusal → Bool) (dropped : holding phase = false) (other : Worker) :
    holding (Function.update phases worker phase other) = true ↔ other ≠ worker ∧ holding (phases other) = true := by
  by_cases same : other = worker
  · rw [same, Function.update_self, dropped]
    simp
  · rw [Function.update_of_ne same, and_iff_right same]

/-- The lock and every mutex have the holder whose phase says so. -/
structure Exclusive (lock : Option Worker) (mutexes : Nat → Option Worker)
    (phases : Worker → Phase Request Local Result Refusal) : Prop where
  lock : Holds lock fun worker => (phases worker).locks = true
  mutex : Guards mutexes fun worker => (phases worker).guards = true

namespace Exclusive

/-- A worker goes on without taking or leaving a lock. -/
theorem stay (exclusive : Exclusive lock mutexes phases) (locks : phase.locks = (phases worker).locks)
    (guards : phase.guards = (phases worker).guards) : Exclusive lock mutexes (Function.update phases worker phase) where
  lock := exclusive.lock.same (update_same Phase.locks locks)
  mutex := exclusive.mutex.same (update_same Phase.guards guards)

theorem enter (exclusive : Exclusive lock mutexes phases) (free : mutexes worker.process = none)
    (locks : phase.locks = (phases worker).locks) (guards : phase.guards = true) :
    Exclusive lock (Function.update mutexes worker.process (some worker)) (Function.update phases worker phase) where
  lock := exclusive.lock.same (update_same Phase.locks locks)
  mutex := exclusive.mutex.grab free (update_grab Phase.guards guards)

theorem take (exclusive : Exclusive none mutexes phases) (locks : phase.locks = true)
    (guards : phase.guards = (phases worker).guards) :
    Exclusive (some worker) mutexes (Function.update phases worker phase) where
  lock := exclusive.lock.grab (update_grab Phase.locks locks)
  mutex := exclusive.mutex.same (update_same Phase.guards guards)

theorem unlock (exclusive : Exclusive lock mutexes phases) (held : (phases worker).locks = true)
    (locks : phase.locks = false) (guards : phase.guards = (phases worker).guards) :
    Exclusive none mutexes (Function.update phases worker phase) where
  lock := exclusive.lock.release held (update_drop Phase.locks locks)
  mutex := exclusive.mutex.same (update_same Phase.guards guards)

theorem leave (exclusive : Exclusive lock mutexes phases) (held : (phases worker).guards = true)
    (locks : phase.locks = (phases worker).locks) (guards : phase.guards = false) :
    Exclusive lock (Function.update mutexes worker.process none) (Function.update phases worker phase) where
  lock := exclusive.lock.same (update_same Phase.locks locks)
  mutex := exclusive.mutex.release held (update_drop Phase.guards guards)

theorem panic (exclusive : Exclusive lock mutexes phases) (held : (phases worker).guards = true)
    (locks : phase.locks = false) (guards : phase.guards = false) :
    Exclusive (lock.filter (· ≠ worker)) (Function.update mutexes worker.process none) (Function.update phases worker phase) where
  lock := exclusive.lock.loss fun other => by
    rw [decide_eq_true_iff]
    exact update_drop Phase.locks locks other
  mutex := exclusive.mutex.release held (update_drop Phase.guards guards)

theorem kill (exclusive : Exclusive lock mutexes phases) (process : Nat) :
    Exclusive (lock.filter (·.process ≠ process)) (Function.update mutexes process none)
      fun worker => if worker.process = process then .idle else phases worker where
  lock := exclusive.lock.loss fun other => by
    rw [decide_eq_true_iff]
    by_cases place : other.process = process
    · simp [place, Phase.locks]
    · simp [place]
  mutex := exclusive.mutex.clear (fun other place => by simp [place, Phase.guards]) fun other place => by simp [place]

/-- One worker at most is inside. -/
theorem alone (exclusive : Exclusive lock mutexes phases) (held : (phases worker).locks = true) {other : Worker}
    {seen : Request × Local} (inside : (phases other).place = some seen) : other = worker := by
  have also : (phases other).locks = true := by
    revert inside
    cases phases other with
    | inside => exact fun _ => rfl
    | _ => exact fun inside => absurd inside (Option.some_ne_none _).symm
  have holder := (exclusive.lock worker).mpr held
  exact Option.some.inj (((exclusive.lock other).mpr also).symm.trans holder)

end Exclusive

/-! ### Every call takes effect once at most -/

/-- The locks have one holder each, and the calls are accounted for. -/
structure Orderly (state : State Files Request Local Result Refusal) : Prop where
  exclusive : Exclusive state.lock state.mutexes state.phases
  sound : Ledger.Sound {
    inFlight := fun worker => (state.phases worker).flight
    calls := state.calls
    committed := state.committed.map Prod.fst
    results := state.results.map fun result => (result.1, result.2.isOk) }

theorem flights_update : (fun other => (Function.update phases worker phase other).flight) =
    Function.update (fun other => (phases other).flight) worker phase.flight := by
  funext other
  by_cases same : other = worker
  · rw [same, Function.update_self, Function.update_self]
  · rw [Function.update_of_ne same, Function.update_of_ne same]

namespace Orderly
variable {number : Nat} {request : Request} {place : Local}

theorem start : Orderly (code.machine files).start where
  exclusive := {
    lock := fun _ => ⟨fun held => absurd held (Option.some_ne_none _).symm, fun held => absurd held Bool.false_ne_true⟩
    mutex := fun _ _ => ⟨fun held => absurd held (Option.some_ne_none _).symm, fun held => absurd held.2 Bool.false_ne_true⟩ }
  sound := Ledger.Sound.start

/-- A step of a worker that neither starts nor ends a call, and commits nothing. -/
theorem move (orderly : Orderly state) (exclusive : Exclusive lock mutexes (Function.update state.phases worker phase))
    (flight : phase.flight = (state.phases worker).flight) (shared : Files) :
    Orderly { state.setPhase worker phase with lock, mutexes, shared } where
  exclusive := exclusive
  sound := by
    refine orderly.sound.forget fun other => .inr ?_
    change (Function.update state.phases worker phase other).flight = _
    by_cases same : other = worker
    · rw [same, Function.update_self, flight]
    · rw [Function.update_of_ne same]

theorem call (orderly : Orderly state) (idle : state.phases worker = .idle) :
    Orderly { state.setPhase worker (.called state.calls request) with calls := state.calls + 1 } where
  exclusive := orderly.exclusive.stay (by rw [idle]; rfl) (by rw [idle]; rfl)
  sound := by
    have sound := orderly.sound.call worker
    dsimp only at sound
    rwa [State.setPhase, flights_update]

theorem commit (orderly : Orderly state) (inside : state.phases worker = .inside number request place)
    (shared : Files) (result : Result) :
    Orderly { state.setPhase worker (.ended number (.ok result)) with
      shared
      committed := state.committed ++ [(number, request, result)] } where
  exclusive := orderly.exclusive.stay (by rw [inside]; rfl) (by rw [inside]; rfl)
  sound := by
    have flies : (state.phases worker).flight = some (number, false) := by rw [inside]; rfl
    have sound := orderly.sound.commit flies
    dsimp only at sound
    rwa [State.setPhase, flights_update, List.map_append]

theorem leave (orderly : Orderly state) {result : Except Refusal Result} (unlocked : state.phases worker = .unlocked number result) :
    Orderly { (state.setPhase worker .idle).setMutex worker.process none with
      results := state.results ++ [(number, result)] } where
  exclusive := orderly.exclusive.leave (by rw [unlocked]; rfl) (by rw [unlocked]; rfl) rfl
  sound := by
    have flies : (state.phases worker).flight = some (number, result.isOk) := by rw [unlocked]; rfl
    have sound := orderly.sound.report flies
    dsimp only at sound
    rwa [State.setMutex, State.setPhase, flights_update, List.map_append]

/-- Calls are lost from sight with their workers. -/
theorem lose (orderly : Orderly state) (exclusive : Exclusive lock mutexes phases)
    (lost : ∀ other, phases other = .idle ∨ phases other = state.phases other) :
    Orderly { state with lock, mutexes, phases } where
  exclusive := exclusive
  sound := orderly.sound.forget fun other => (lost other).imp (congrArg Phase.flight) (congrArg Phase.flight)

end Orderly

/-! ### What a section keeps -/

/-- What is asked for, what is met at a place, and where a section may be cut off. -/
structure Limits (Request Local Choice : Type*) where
  asks : Request → Prop
  meets : Local → Choice → Prop
  cuts : Local → Prop

namespace Limits

def none : Limits Request Local Choice where
  asks _ := True
  meets _ _ := True
  cuts _ := True

/-- A run stays within the limits. -/
def Allows (limits : Limits Request Local Choice) (state : State Files Request Local Result Refusal) :
    Event Request Choice → Prop
  | .call _ request => limits.asks request
  | .advance worker choice => ∀ seen ∈ (state.phases worker).place, limits.meets seen.2 choice
  | .panic worker => ∀ seen ∈ (state.phases worker).place, limits.cuts seen.2
  | .kill process => ∀ worker ∈ state.lock, worker.process = process → ∀ seen ∈ (state.phases worker).place, limits.cuts seen.2
  | _ => True

instance (limits : Limits Request Local Choice) [DecidablePred limits.asks] [DecidablePred limits.cuts]
    [∀ place choice, Decidable (limits.meets place choice)] (state : State Files Request Local Result Refusal)
    (event : Event Request Choice) : Decidable (limits.Allows state event) :=
  match event with
  | .call _ request => inferInstanceAs (Decidable (limits.asks request))
  | .advance worker choice => inferInstanceAs (Decidable (∀ seen ∈ (state.phases worker).place, limits.meets seen.2 choice))
  | .panic worker => inferInstanceAs (Decidable (∀ seen ∈ (state.phases worker).place, limits.cuts seen.2))
  | .kill process => inferInstanceAs (Decidable (∀ worker ∈ state.lock, worker.process = process →
      ∀ seen ∈ (state.phases worker).place, limits.cuts seen.2))
  | .enter _ | .take _ | .fail _ | .unlock _ | .leave _ => .isTrue trivial

theorem allows_none (state : State Files Request Local Result Refusal) (event : Event Request Choice) :
    none.Allows state event := by
  cases event <;> simp only [Allows, none, implies_true]

end Limits

/-- What holds behind a step of a section. -/
def After (good : List (Request × Result) → Files → Prop) (inside : Request → Local → List (Request × Result) → Files → Prop)
    (refusable : Refusal → Prop) (request : Request) (commits : List (Request × Result)) :
    Files × Outcome Local Result Refusal → Prop
  | (files, .go next) => inside request next commits files
  | (files, .refuse refusal) => good commits files ∧ refusable refusal
  | (files, .commit result) => good (commits ++ [(request, result)]) files

/-- `good` holds of the commits and the files whenever nobody is inside, and `inside` at each
place of a section. A section that is cut off leaves what is good. -/
structure Keeps (code : Section Files Request Local Result Refusal Choice) (limits : Limits Request Local Choice)
    (good : List (Request × Result) → Files → Prop) (inside : Request → Local → List (Request × Result) → Files → Prop)
    (refusable : Refusal → Prop) : Prop where
  enters : ∀ {request commits files}, limits.asks request → good commits files →
    inside request (code.enter request) commits files
  cut : ∀ {request place commits files}, limits.cuts place → inside request place commits files → good commits files
  advances : ∀ {request place commits files choice}, limits.meets place choice → inside request place commits files →
    After good inside refusable request commits (code.advance choice place files)
  io : refusable code.io

/-- What is known of an answer. -/
def Answered (refusable : Refusal → Prop) (committed : List (Nat × Request × Result)) (call : Nat) : Except Refusal Result → Prop
  | .ok result => ∃ request, (call, request, result) ∈ committed
  | .error refusal => refusable refusal

/-- What is known of a worker by its phase. -/
def Fits (limits : Limits Request Local Choice) (inside : Request → Local → List (Request × Result) → Files → Prop)
    (refusable : Refusal → Prop) (committed : List (Nat × Request × Result)) (files : Files) :
    Phase Request Local Result Refusal → Prop
  | .idle => True
  | .called _ request | .guarded _ request => limits.asks request
  | .inside _ request place => inside request place (committed.map Prod.snd) files
  | .ended call result | .unlocked call result => Answered refusable committed call result

/-- What holds of the files and of the answers in a state. -/
structure Kept (limits : Limits Request Local Choice) (good : List (Request × Result) → Files → Prop)
    (inside : Request → Local → List (Request × Result) → Files → Prop) (refusable : Refusal → Prop)
    (state : State Files Request Local Result Refusal) : Prop where
  orderly : Orderly state
  fits : ∀ worker, Fits limits inside refusable state.committed state.shared (state.phases worker)
  good : (∀ worker ∈ state.lock, (state.phases worker).place = none) → good (state.committed.map Prod.snd) state.shared
  told : ∀ answer ∈ state.results, Answered refusable state.committed answer.1 answer.2

section
variable {limits : Limits Request Local Choice} {good : List (Request × Result) → Files → Prop}
  {inside : Request → Local → List (Request × Result) → Files → Prop} {refusable : Refusal → Prop}
  {committed : List (Nat × Request × Result)} {later : List (Nat × Request × Result)} {shared : Files} {place : Local}
  {request : Request}

theorem Answered.grown {call : Nat} {result : Except Refusal Result} (answered : Answered refusable committed call result)
    (grown : committed ⊆ later) : Answered refusable later call result := by
  cases result with
  | ok result => exact answered.imp fun _ member => grown member
  | error refusal => exact answered

/-- Who is not inside does not care for the files. -/
theorem Fits.outside (fits : Fits limits inside refusable committed files phase) (grown : committed ⊆ later)
    (apart : phase.place = none) : Fits limits inside refusable later shared phase := by
  cases phase with
  | idle => trivial
  | called | guarded => exact fits
  | inside => exact absurd apart (Option.some_ne_none _)
  | ended | unlocked => exact Answered.grown fits grown

theorem forall_update {holds : Phase Request Local Result Refusal → Prop} (before : ∀ other, other ≠ worker → holds (phases other))
    (now : holds phase) (other : Worker) : holds (Function.update phases worker phase other) := by
  by_cases same : other = worker
  · rw [same, Function.update_self]
    exact now
  · rw [Function.update_of_ne same]
    exact before other same

/-- A worker outside of its section stays outside. -/
theorem quiet_update (before : (phases worker).place = none) (quiet : ∀ other ∈ lock,
    (Function.update phases worker phase other).place = none) : ∀ other ∈ lock, (phases other).place = none := by
  intro other holder
  by_cases same : other = worker
  · rw [same, before]
  · have still := quiet other holder
    rwa [Function.update_of_ne same] at still

namespace Kept
variable (kept : Kept limits good inside refusable state) (keeps : code.Keeps limits good inside refusable)
include kept

/-- The files are good as long as nobody holds the lock. -/
theorem unlocked (free : state.lock = none) : good (state.committed.map Prod.snd) state.shared :=
  kept.good fun _ holder => absurd (holder.symm.trans free) (Option.some_ne_none _)

theorem owned (worker : Worker) (held : (state.phases worker).locks = true) (quiet : (state.phases worker).place = none) :
    good (state.committed.map Prod.snd) state.shared := by
  refine kept.good fun other holder => ?_
  have owner := (kept.orderly.exclusive.lock worker).mpr held
  exact Option.some.inj (holder.symm.trans owner) ▸ quiet

/-- A worker outside of its section changes its phase and no file. -/
theorem turn (before : (state.phases worker).place = none) (now : Fits limits inside refusable state.committed state.shared phase)
    (orderly : Orderly { state.setPhase worker phase with lock := state.lock, mutexes, shared := state.shared }) :
    Kept limits good inside refusable { state.setPhase worker phase with lock := state.lock, mutexes, shared := state.shared } :=
  ⟨orderly, forall_update (fun other _ => kept.fits other) now, fun quiet => kept.good (quiet_update before quiet), kept.told⟩

/-- The others are outside while one is inside. -/
theorem others (held : (state.phases worker).locks = true) (grown : state.committed ⊆ later) {other : Worker} (apart : other ≠ worker) :
    Fits limits inside refusable later shared (state.phases other) := by
  refine (kept.fits other).outside grown ?_
  cases seen : (state.phases other).place with
  | none => rfl
  | some => exact absurd (kept.orderly.exclusive.alone held seen) apart

/-- The files are good but for the worker that is inside. -/
theorem good_or_inside : good (state.committed.map Prod.snd) state.shared ∨ ∃ owner ∈ state.lock, ∃ seen,
    (state.phases owner).place = some seen ∧ inside seen.1 seen.2 (state.committed.map Prod.snd) state.shared := by
  cases holder : state.lock with
  | none => exact .inl (kept.unlocked holder)
  | some owner =>
    have held := (kept.orderly.exclusive.lock owner).mp holder
    cases phase : state.phases owner with
    | inside call request place =>
      have fits := kept.fits owner
      rw [phase] at fits
      exact .inr ⟨owner, rfl, (request, place), by rw [phase]; rfl, fits⟩
    | _ => exact .inl (kept.owned owner held (by rw [phase]; rfl))

include keeps

/-- Where the limits let the lost workers be cut off, the files are good without them. -/
theorem lose (lost : Worker → Prop) (cuts : ∀ owner ∈ state.lock, lost owner → ∀ seen ∈ (state.phases owner).place, limits.cuts seen.2)
    (quiet : ∀ owner ∈ state.lock, ¬ lost owner → (state.phases owner).place = none) :
    good (state.committed.map Prod.snd) state.shared := by
  obtain now | ⟨owner, holder, seen, stands, within⟩ := kept.good_or_inside
  · exact now
  · by_cases gone : lost owner
    · exact keeps.cut (cuts owner holder gone seen stands) within
    · exact absurd (stands.symm.trans (quiet owner holder gone)) (Option.some_ne_none _)

/-- Where a section may be cut off anywhere, the files are good even while somebody is inside. -/
theorem good_throughout (anywhere : ∀ place, limits.cuts place) : good (state.committed.map Prod.snd) state.shared :=
  kept.lose keeps (fun _ => True) (fun _ _ _ _ _ => anywhere _) fun _ _ stays => absurd trivial stays

theorem step (allowed : limits.Allows state event) (taken : code.step state event = some after) :
    Kept limits good inside refusable after := by
  have orderly := kept.orderly
  have exclusive := orderly.exclusive
  cases event with
  | call worker request =>
    simp only [Section.step] at taken
    split at taken
    · next idle =>
      cases taken
      exact ⟨orderly.call idle, forall_update (fun other _ => kept.fits other) allowed,
        fun quiet => kept.good (quiet_update (by rw [idle]; rfl) quiet), kept.told⟩
    · cases taken
  | enter worker =>
    simp only [Section.step] at taken
    split at taken
    · next called free =>
      cases taken
      have asks := called ▸ kept.fits worker
      exact kept.turn (by rw [called]; rfl) asks (orderly.move (exclusive.enter free (by rw [called]; rfl) rfl) (by rw [called]; rfl) _)
    · cases taken
  | take worker =>
    simp only [Section.step] at taken
    split at taken
    · next guarded free =>
      cases taken
      have asks := guarded ▸ kept.fits worker
      refine ⟨orderly.move ((free ▸ exclusive).take rfl (by rw [guarded]; rfl)) (by rw [guarded]; rfl) _,
        forall_update (fun other _ => kept.fits other) (keeps.enters asks (kept.unlocked free)), fun quiet => ?_, kept.told⟩
      have none := quiet worker rfl
      dsimp only [State.setPhase] at none
      rw [Function.update_self] at none
      exact absurd none (Option.some_ne_none _)
    · cases taken
  | advance worker choice =>
    simp only [Section.step] at taken
    split at taken
    · next stands =>
      have held : (state.phases worker).locks = true := by rw [stands]; rfl
      have owner := (exclusive.lock worker).mpr held
      have fits := stands ▸ kept.fits worker
      have now := keeps.advances (allowed _ (congrArg Phase.place stands)) fits
      have stays : ∀ {phase : Phase Request Local Result Refusal}, phase.locks = true → phase.guards = true →
          Exclusive state.lock state.mutexes (Function.update state.phases worker phase) := fun locks guards =>
        exclusive.stay (locks.trans (by rw [stands]; rfl)) (guards.trans (by rw [stands]; rfl))
      split at taken
      · next goes =>
        cases taken
        rw [goes] at now
        refine ⟨orderly.move (stays rfl rfl) (by rw [stands]; rfl) _,
          forall_update (fun _ apart => kept.others held (List.Subset.refl _) apart) now, fun quiet => ?_, kept.told⟩
        have none := quiet worker owner
        dsimp only [State.setPhase] at none
        rw [Function.update_self] at none
        exact absurd none (Option.some_ne_none _)
      · next refuses =>
        cases taken
        rw [refuses] at now
        exact ⟨orderly.move (stays rfl rfl) (by rw [stands]; rfl) _,
          forall_update (fun _ apart => kept.others held (List.Subset.refl _) apart) now.2, fun _ => now.1, kept.told⟩
      · next commits =>
        cases taken
        rw [commits] at now
        have grown := List.subset_append_left state.committed
        refine ⟨orderly.commit stands _ _, forall_update (fun _ apart => kept.others held (grown _) apart)
          ⟨_, List.mem_append_right _ (List.mem_singleton_self _)⟩, fun _ => ?_, fun answer member => (kept.told answer member).grown (grown _)⟩
        dsimp only
        rw [List.map_append]
        exact now
    · cases taken
  | fail worker =>
    simp only [Section.step] at taken
    split at taken
    · next guarded =>
      cases taken
      exact kept.turn (by rw [guarded]; rfl) keeps.io
        (orderly.move (exclusive.stay (by rw [guarded]; rfl) (by rw [guarded]; rfl)) (by rw [guarded]; rfl) _)
    · cases taken
  | unlock worker =>
    simp only [Section.step] at taken
    split at taken
    · next ended =>
      cases taken
      have answered := ended ▸ kept.fits worker
      exact ⟨orderly.move (exclusive.unlock (by rw [ended]; rfl) rfl (by rw [ended]; rfl)) (by rw [ended]; rfl) _,
        forall_update (fun other _ => kept.fits other) answered,
        fun _ => kept.owned worker (by rw [ended]; rfl) (by rw [ended]; rfl), kept.told⟩
    · cases taken
  | leave worker =>
    simp only [Section.step] at taken
    split at taken
    · next unlocked =>
      cases taken
      have answered := unlocked ▸ kept.fits worker
      refine ⟨orderly.leave unlocked, forall_update (fun other _ => kept.fits other) trivial,
        fun quiet => kept.good (quiet_update (by rw [unlocked]; rfl) quiet), fun answer member => ?_⟩
      obtain before | now := List.mem_append.mp member
      · exact kept.told answer before
      · obtain rfl := List.mem_singleton.mp now
        exact answered
    · cases taken
  | panic worker =>
    simp only [Section.step] at taken
    split at taken
    · next guards =>
      cases taken
      refine ⟨orderly.lose (exclusive.panic guards rfl rfl) fun other => ?_,
        forall_update (fun other _ => kept.fits other) trivial, fun quiet => ?_, kept.told⟩
      · by_cases same : other = worker
        · exact .inl (same ▸ Function.update_self ..)
        · exact .inr (Function.update_of_ne same ..)
      · refine kept.lose keeps (· = worker) (fun owner _ same => same ▸ allowed) fun owner holder apart => ?_
        have still := quiet owner (Option.mem_filter_iff.mpr ⟨holder, decide_eq_true apart⟩)
        dsimp only [State.setMutex, State.setPhase] at still
        rwa [Function.update_of_ne apart] at still
    · cases taken
  | kill process =>
    cases taken
    refine ⟨orderly.lose (exclusive.kill process) fun other => ?_, fun other => ?_, fun quiet => ?_, kept.told⟩
    · split
      · exact .inl rfl
      · exact .inr rfl
    · dsimp only
      split
      · trivial
      · exact kept.fits other
    · refine kept.lose keeps (·.process = process) allowed fun owner holder apart => ?_
      have still := quiet owner (Option.mem_filter_iff.mpr ⟨holder, decide_eq_true apart⟩)
      dsimp only at still
      rwa [if_neg apart] at still

end Kept

theorem Kept.reached (keeps : code.Keeps limits good inside refusable) (initial : good [] files)
    (reached : (code.machine files).Reachable limits.Allows state) : Kept limits good inside refusable state :=
  reached.invariant ⟨.start, fun _ => trivial, fun _ => initial, fun _ member => absurd member List.not_mem_nil⟩
    fun _ _ _ kept allowed taken => kept.step keeps allowed taken

end

theorem reachable_none (reached : (code.machine files).Reachable Machine.free state) :
    (code.machine files).Reachable Limits.none.Allows state := by
  induction reached with
  | start => exact .start
  | step _ _ taken ih => exact ih.step (Limits.allows_none _ _) taken

/-- What has been committed stays, in its order. -/
theorem step_committed (taken : code.step state event = some after) : state.committed <+: after.committed := by
  cases event with
  | kill process =>
    cases taken
    exact List.prefix_refl _
  | advance worker choice =>
    simp only [Section.step] at taken
    split at taken
    · split at taken
      · cases taken
        exact List.prefix_refl _
      · cases taken
        exact List.prefix_refl _
      · cases taken
        exact List.prefix_append ..
    · cases taken
  | _ =>
    simp only [Section.step] at taken
    split at taken
    · cases taken
      exact List.prefix_refl _
    · cases taken

theorem run_committed {events : List (Event Request Choice)}
    (taken : (code.machine files).run Machine.free state events = some after) : state.committed <+: after.committed :=
  Machine.run_preserves (fun later => state.committed <+: later.committed)
    (fun _ _ _ grown _ taken => grown.trans (step_committed taken)) (List.prefix_refl _) taken

/-- The event brings a call that is in flight nearer to its end. -/
def Event.onward : Event Request Choice → Bool
  | .enter _ | .take _ | .advance .. | .unlock _ | .leave _ => true
  | .call .. | .fail _ | .panic _ | .kill _ => false

/-- Nobody waits for ever: while a call is in flight, one of those in flight can go on. -/
theorem Orderly.live (orderly : Orderly state) (choice : Choice) (flies : state.phases worker ≠ .idle) :
    ∃ event, event.onward = true ∧ (code.step state event).isSome = true := by
  have exclusive := orderly.exclusive
  cases holder : state.lock with
  | some owner =>
    have held : (state.phases owner).locks = true := (exclusive.lock owner).mp holder
    cases phase : state.phases owner with
    | inside call request place =>
      refine ⟨.advance owner choice, rfl, ?_⟩
      simp only [Section.step, phase]
      split <;> rfl
    | ended => exact ⟨.unlock owner, rfl, by simp only [Section.step, phase]; rfl⟩
    | _ =>
      rw [phase] at held
      exact absurd held Bool.false_ne_true
  | none =>
    have goes : ∀ {other}, (state.phases other).guards = true →
        ∃ event, event.onward = true ∧ (code.step state event).isSome = true := by
      intro other guards
      cases phase : state.phases other with
      | guarded => exact ⟨.take other, rfl, by simp only [Section.step, phase, holder]; rfl⟩
      | unlocked => exact ⟨.leave other, rfl, by simp only [Section.step, phase]; rfl⟩
      | idle | called =>
        rw [phase] at guards
        exact absurd guards Bool.false_ne_true
      | inside | ended =>
        have locks := (exclusive.lock other).mpr (congrArg Phase.locks phase)
        exact absurd (holder.symm.trans locks) (Option.some_ne_none _).symm
    cases phase : state.phases worker with
    | idle => exact absurd phase flies
    | called =>
      cases mutex : state.mutexes worker.process with
      | some other => exact goes ((exclusive.mutex worker.process) other |>.mp mutex).2
      | none => exact ⟨.enter worker, rfl, by simp only [Section.step, phase, mutex]; rfl⟩
    | _ => exact goes (by rw [phase]; rfl)

end Section
end Foundation
