import Mathlib.Data.List.Basic
import Wisphive.Foundation.Program
import Wisphive.Foundation.Trace

/-! Tasks that run programs over a shared state, one operation at a time in any
order. The trace keeps what was asked, in which state, and what was answered. -/

namespace Foundation

/-- What tasks share, the jobs that they do, and what an operation does. A choice
settles what the outside decides, such as whether a statement fails. -/
structure World where
  Op : Type
  Reply : Op → Type
  Shared : Type
  Job : Type
  Choice : Type
  Drift : Type
  body : Job → Program Op Reply Unit
  perform : Choice → (op : Op) → Shared → Option (Reply op × Shared)
  drift : Drift → Shared → Option Shared

inductive Entry (world : World) where
  | launched (task : Nat) (job : world.Job)
  | performed (task : Nat) (op : world.Op) (before : world.Shared) (reply : world.Reply op)
  | drifted

namespace Entry
variable {world : World}

def task : Entry world → Option Nat
  | .launched task _ => some task
  | .performed task _ _ _ => some task
  | .drifted => none

end Entry

/-- What happened, newest first. -/
abbrev History (world : World) := List (Entry world)

/-- The shared state, what each task still has to do, and the trace. -/
structure System (world : World) where
  shared : world.Shared
  tasks : List (Program world.Op world.Reply Unit) := []
  trace : History world := []

inductive Event (world : World) where
  | launch (job : world.Job)
  | advance (task : Nat) (choice : world.Choice)
  | drift (drift : world.Drift)

/-- The jobs that may be launched, and the operations that may be performed. -/
structure Guard (world : World) where
  admits : world.Job → History world → Bool := fun _ _ => true
  grants : Nat → world.Choice → world.Op → History world → world.Shared → Bool := fun _ _ _ _ _ => true

namespace System
variable {world : World}

/-- A new task takes the next number. -/
def launch (system : System world) (job : world.Job) : System world :=
  { system with
    tasks := system.tasks ++ [world.body job]
    trace := .launched system.tasks.length job :: system.trace }

def step (system : System world) : Event world → Option (System world)
  | .launch job => some (system.launch job)
  | .advance task choice =>
    match system.tasks[task]? with
    | some (.request op next) =>
      (world.perform choice op system.shared).map fun (reply, after) =>
        { shared := after
          tasks := system.tasks.set task (next reply)
          trace := .performed task op system.shared reply :: system.trace }
    | _ => none
  | .drift drift =>
    (world.drift drift system.shared).map fun after =>
      { system with shared := after, trace := .drifted :: system.trace }

def machine (world : World) (initial : world.Shared) : Machine (System world) (Event world) where
  start := { shared := initial }
  step := step

/-- An event is allowed if the guard admits its job or grants its operation. -/
def Meets (guard : Guard world) (system : System world) : Event world → Prop
  | .launch job => guard.admits job system.trace = true
  | .advance task choice =>
    match system.tasks[task]? with
    | some (.request op _) => guard.grants task choice op system.trace system.shared = true
    | _ => True
  | .drift _ => True

/-- The guard that names no condition allows everything. -/
theorem meets_free (system : System world) (event : Event world) : system.Meets {} event := by
  cases event with
  | launch job => rfl
  | advance task choice =>
    simp only [Meets]
    split <;> trivial
  | drift drift => trivial

theorem reachable_step {initial : world.Shared} {before after : System world} {event : Event world}
    (reached : (machine world initial).Reachable (Meets {}) before) (taken : before.step event = some after) :
    (machine world initial).Reachable (Meets {}) after :=
  reached.step (meets_free before event) taken

instance (guard : Guard world) (system : System world) (event : Event world) :
    Decidable (system.Meets guard event) :=
  match event with
  | .launch _ => inferInstanceAs (Decidable (_ = true))
  | .advance task _ =>
    match found : system.tasks[task]? with
    | some (.request _ _) => by simp only [Meets, found]; infer_instance
    | some (.pure _) => .isTrue (by simp only [Meets, found])
    | none => .isTrue (by simp only [Meets, found])
  | .drift _ => .isTrue trivial

end System

/-- A later trace to which only others have added. -/
def Extends {world : World} (task : Nat) (earlier later : History world) : Prop :=
  ∃ others, later = others ++ earlier ∧ ∀ entry ∈ others, entry.task ≠ some task

namespace Extends
variable {world : World} {task : Nat} {earlier middle later : History world}

theorem refl (task : Nat) (trace : History world) : Extends task trace trace :=
  ⟨[], rfl, fun _ member => nomatch member⟩

theorem trans (first : Extends task earlier middle) (second : Extends task middle later) :
    Extends task earlier later := by
  obtain ⟨early, rfl, foreign⟩ := first
  obtain ⟨late, rfl, others⟩ := second
  refine ⟨late ++ early, (List.append_assoc ..).symm, fun entry member => ?_⟩
  rcases List.mem_append.mp member with new | old
  · exact others entry new
  · exact foreign entry old

theorem cons (entry : Entry world) (trace : History world) (other : entry.task ≠ some task) :
    Extends task trace (entry :: trace) :=
  ⟨[entry], rfl, fun _ member => List.mem_singleton.mp member ▸ other⟩

end Extends

/-- What a task knows stays known, whatever it or the others do. -/
structure Stable {world : World} (task : Nat) (knows : History world → Prop) : Prop where
  grown : ∀ {earlier later}, Extends task earlier later → knows earlier → knows later
  performed : ∀ op before reply trace, knows trace → knows (.performed task op before reply :: trace)

namespace Stable
variable {world : World} {task : Nat}

/-- What every entry but a launch of the task keeps. -/
theorem of_cons {knows : History world → Prop}
    (kept : ∀ entry trace, (∀ job, entry ≠ .launched task job) → knows trace → knows (entry :: trace)) :
    Stable task knows where
  grown grown known := by
    obtain ⟨others, rfl, foreign⟩ := grown
    induction others with
    | nil => exact known
    | cons entry rest ih =>
      apply kept entry _ _ (ih fun other member => foreign other (List.mem_cons_of_mem _ member))
      rintro job rfl
      exact foreign _ (List.mem_cons_self ..) rfl
  performed op before reply trace known := kept _ trace (fun _ same => by cases same) known

theorem always {fact : Prop} : Stable task fun (_ : History world) => fact :=
  of_cons fun _ _ _ known => known

end Stable

/-- What holds of every trace and shared state, what a task must know before it
asks for an operation, and what it knows at its end. -/
structure Contract (world : World) where
  valid : History world → world.Shared → Prop
  may : Nat → world.Op → History world → world.Shared → Prop := fun _ _ _ _ => True
  done : Nat → History world → Prop := fun _ _ => True

section Safe
variable {world : World} (guard : Guard world) (contract : Contract world)

/-- A program that knows what the contract asks at each of its operations, however
the other tasks come in between, and that ends with `post`. -/
def Safe (task : Nat) {α : Type} (post : α → History world → Prop) :
    Program world.Op world.Reply α → History world → Prop
  | .pure value, trace => post value trace
  | .request op next, trace => ∀ later shared, Extends task trace later → contract.valid later shared →
      contract.may task op later shared ∧
      ∀ choice reply after, guard.grants task choice op later shared = true →
        world.perform choice op shared = some (reply, after) →
        contract.valid (.performed task op shared reply :: later) after →
        Safe task post (next reply) (.performed task op shared reply :: later)

variable {guard contract} {task : Nat} {α β : Type}

theorem safe_request {post : α → History world → Prop} {op : world.Op}
    {next : world.Reply op → Program world.Op world.Reply α} {trace : History world}
    (step : ∀ later shared, Extends task trace later → contract.valid later shared →
      contract.may task op later shared ∧
      ∀ choice reply after, guard.grants task choice op later shared = true →
        world.perform choice op shared = some (reply, after) →
        contract.valid (.performed task op shared reply :: later) after →
        Safe guard contract task post (next reply) (.performed task op shared reply :: later)) :
    Safe guard contract task post (.request op next) trace :=
  step

/-- The same for a single operation that is bound. -/
theorem safe_ask {post : α → History world → Prop} {op : world.Op}
    {next : world.Reply op → Program world.Op world.Reply α} {trace : History world}
    (step : ∀ later shared, Extends task trace later → contract.valid later shared →
      contract.may task op later shared ∧
      ∀ choice reply after, guard.grants task choice op later shared = true →
        world.perform choice op shared = some (reply, after) →
        contract.valid (.performed task op shared reply :: later) after →
        Safe guard contract task post (next reply) (.performed task op shared reply :: later)) :
    Safe guard contract task post (Program.request op .pure >>= next) trace :=
  step

/-- A program that only asks for operations that the contract allows to whoever
knows what the task knows. -/
theorem Safe.of_uses {post : α → History world → Prop} {allowed : world.Op → Prop} {returns : α → Prop}
    {possible : (op : world.Op) → world.Reply op → Prop} {knows : History world → Prop}
    {program : Program world.Op world.Reply α} {trace : History world}
    (lawful : ∀ choice op shared reply after, world.perform choice op shared = some (reply, after) → possible op reply)
    (stable : Stable task knows) (uses : program.Uses allowed possible returns) (known : knows trace)
    (may : ∀ op trace shared, allowed op → knows trace → contract.valid trace shared →
      contract.may task op trace shared)
    (done : ∀ value trace, returns value → knows trace → post value trace) :
    Safe guard contract task post program trace := by
  induction program generalizing trace with
  | pure value => exact done value trace uses known
  | request op rest ih =>
    intro later shared grown valid
    have kept := stable.grown grown known
    refine ⟨may op later shared uses.1 kept valid, fun choice reply after _ performed _ => ?_⟩
    exact ih reply (uses.2 reply (lawful choice op shared reply after performed))
      (stable.performed op shared reply later kept)

/-- No entry of a task yet. -/
def Fresh (task : Nat) (trace : History world) : Prop :=
  ∀ entry ∈ trace, entry.task ≠ some task

theorem Fresh.extends {trace : History world} (fresh : Fresh task trace) : Extends task [] trace :=
  ⟨trace, (List.append_nil _).symm, fresh⟩

variable (guard contract)

/-- What has to be shown of a contract: the operations keep the invariant when
they are asked for as the contract says, and the jobs ask for them so. -/
structure Lawful (initial : world.Shared) : Prop where
  start : contract.valid [] initial
  launch : ∀ task job trace shared, contract.valid trace shared → guard.admits job trace = true →
    Fresh task trace → contract.valid (.launched task job :: trace) shared
  step : ∀ task choice op trace shared reply after, contract.valid trace shared →
    contract.may task op trace shared → guard.grants task choice op trace shared = true →
    world.perform choice op shared = some (reply, after) →
    contract.valid (.performed task op shared reply :: trace) after
  drift : ∀ drift trace shared after, contract.valid trace shared → world.drift drift shared = some after →
    contract.valid (.drifted :: trace) after
  bodies : ∀ task job trace, guard.admits job trace = true → Fresh task trace →
    Safe guard contract task (fun _ => contract.done task) (world.body job) (.launched task job :: trace)

/-- The invariant, and what the tasks still have to do. -/
structure Kept (system : System world) : Prop where
  valid : contract.valid system.trace system.shared
  numbered : ∀ entry ∈ system.trace, ∀ task, entry.task = some task → task < system.tasks.length
  safe : ∀ task program, system.tasks[task]? = some program →
    ∃ earlier, Extends task earlier system.trace ∧
      Safe guard contract task (fun _ => contract.done task) program earlier

variable {guard contract} {initial : world.Shared} {system : System world}

theorem Kept.start (lawful : Lawful guard contract initial) :
    Kept guard contract { shared := initial } where
  valid := lawful.start
  numbered _ member := nomatch member
  safe _ _ found := nomatch found

theorem Kept.launch (lawful : Lawful guard contract initial) (kept : Kept guard contract system) {job : world.Job}
    (admitted : guard.admits job system.trace = true) : Kept guard contract (system.launch job) := by
  have fresh : Fresh system.tasks.length system.trace := by
    intro entry member same
    have := kept.numbered entry member _ same
    omega
  refine ⟨lawful.launch _ _ _ _ kept.valid admitted fresh, fun entry member task named => ?_,
    fun task program found => ?_⟩
  · rw [System.launch, List.length_append, List.length_singleton]
    rcases List.mem_cons.mp member with rfl | old
    · cases named
      omega
    · have := kept.numbered entry old task named
      omega
  · rw [System.launch, List.getElem?_append] at found
    split at found
    next bound =>
      obtain ⟨earlier, grown, safe⟩ := kept.safe task program found
      refine ⟨earlier, grown.trans (.cons _ _ fun same => ?_), safe⟩
      cases same
      omega
    next bound =>
      obtain ⟨position, rfl⟩ := List.getElem?_eq_some_iff.mp found
      rw [List.length_singleton] at position
      have same : task = system.tasks.length := by omega
      subst same
      simp only [Nat.sub_self, List.getElem_cons_zero]
      exact ⟨_, .refl _ _, lawful.bodies _ job _ admitted fresh⟩

theorem Kept.advance (lawful : Lawful guard contract initial) (kept : Kept guard contract system) {task : Nat}
    {op : world.Op} {next : world.Reply op → Program world.Op world.Reply Unit} {choice : world.Choice}
    {reply : world.Reply op} {after : world.Shared} (found : system.tasks[task]? = some (.request op next))
    (granted : guard.grants task choice op system.trace system.shared = true)
    (performed : world.perform choice op system.shared = some (reply, after)) :
    Kept guard contract
      { shared := after
        tasks := system.tasks.set task (next reply)
        trace := .performed task op system.shared reply :: system.trace } := by
  obtain ⟨earlier, grown, safe⟩ := kept.safe task _ found
  obtain ⟨may, resume⟩ := safe _ _ grown kept.valid
  have valid := lawful.step _ _ _ _ _ _ _ kept.valid may granted performed
  have bound : task < system.tasks.length := (List.getElem?_eq_some_iff.mp found).1
  refine ⟨valid, fun entry member other named => ?_, fun other program known => ?_⟩
  · rw [List.length_set]
    rcases List.mem_cons.mp member with rfl | old
    · cases named
      exact bound
    · exact kept.numbered entry old other named
  · rw [List.getElem?_set] at known
    split at known
    next same =>
      subst same
      cases known
      exact ⟨_, .refl _ _, resume choice reply after granted performed valid⟩
    next differ =>
      obtain ⟨before, kept, safe⟩ := kept.safe other program known
      exact ⟨before, kept.trans (.cons _ _ fun same => differ (Option.some.inj same)), safe⟩

theorem Kept.drift (lawful : Lawful guard contract initial) (kept : Kept guard contract system) {drift : world.Drift}
    {after : world.Shared} (drifted : world.drift drift system.shared = some after) :
    Kept guard contract { system with shared := after, trace := .drifted :: system.trace } := by
  refine ⟨lawful.drift _ _ _ _ kept.valid drifted, fun entry member task named => ?_, fun task program found => ?_⟩
  · rcases List.mem_cons.mp member with rfl | old
    · cases named
    · exact kept.numbered entry old task named
  · obtain ⟨earlier, grown, safe⟩ := kept.safe task program found
    exact ⟨earlier, grown.trans (.cons _ _ fun same => by cases same), safe⟩

/-- A lawful contract is kept by every guarded run. -/
theorem Lawful.kept (lawful : Lawful guard contract initial)
    (reached : (System.machine world initial).Reachable (System.Meets guard) system) :
    Kept guard contract system := by
  refine reached.invariant (Kept.start lawful) fun before event after kept met taken => ?_
  cases event with
  | launch job =>
    cases taken
    exact kept.launch lawful met
  | advance task choice =>
    simp only [System.machine, System.step] at taken
    split at taken
    next op next found =>
      simp only [System.Meets, found] at met
      obtain ⟨⟨reply, after⟩, performed, rfl⟩ := Option.map_eq_some_iff.mp taken
      exact kept.advance lawful found met performed
    next => cases taken
  | drift drift =>
    obtain ⟨after, drifted, rfl⟩ := Option.map_eq_some_iff.mp taken
    exact kept.drift lawful drifted

end Safe
end Foundation
