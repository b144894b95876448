import Wisphive.Foundation.Interleaving

/-! Rules that a program follows by itself: what it may ask for is told by its own
earlier steps. Whatever the others do, it then asks for nothing else. -/

namespace Foundation
variable {world : World} {task : Nat}

/-- The entries of a task, newest first. -/
def own (task : Nat) (trace : History world) : History world :=
  trace.filter fun entry => entry.task = some task

theorem own_cons {entry : Entry world} (mine : entry.task = some task) (trace : History world) :
    own task (entry :: trace) = entry :: own task trace :=
  List.filter_cons_of_pos (decide_eq_true mine)

theorem own_foreign {entry : Entry world} (foreign : entry.task ≠ some task) (trace : History world) :
    own task (entry :: trace) = own task trace :=
  List.filter_cons_of_neg (by simpa using foreign)

theorem own_extends {earlier later : History world} (grown : Extends task earlier later) :
    own task later = own task earlier := by
  obtain ⟨others, rfl, foreign⟩ := grown
  rw [own, List.filter_append, List.filter_eq_nil_iff.mpr, List.nil_append, own]
  intro entry member
  simpa using foreign entry member

theorem own_fresh {trace : History world} (fresh : Fresh task trace) : own task trace = [] := by
  refine List.filter_eq_nil_iff.mpr fun entry member => ?_
  simpa using fresh entry member

theorem mem_own {trace : History world} {entry : Entry world} :
    entry ∈ own task trace ↔ entry ∈ trace ∧ entry.task = some task := by
  simp only [own, List.mem_filter, decide_eq_true_eq]

/-- Where the newest entry of a task stands. -/
theorem own_head {trace rest : History world} {entry : Entry world} (newest : own task trace = entry :: rest) :
    ∃ later earlier, trace = later ++ entry :: earlier ∧ (∀ other ∈ later, other.task ≠ some task) ∧
      own task earlier = rest := by
  obtain ⟨later, earlier, split, foreign, _, same⟩ := List.filter_eq_cons_iff.mp newest
  exact ⟨later, earlier, split, fun other member => by simpa using foreign other member, same⟩

/-- Every operation that the program can come to follows the rule, given what the task
did before. -/
def Obeys (rule : History world → world.Op → Prop) (task : Nat) {α : Type} (post : α → History world → Prop) :
    Program world.Op world.Reply α → History world → Prop
  | .pure value, past => post value past
  | .request op next, past => rule past op ∧ ∀ choice before reply after,
      world.perform choice op before = some (reply, after) →
      Obeys rule task post (next reply) (.performed task op before reply :: past)

section Obeys
variable {rule : History world → world.Op → Prop} {α β : Type} {past : History world}

theorem obeys_request {post : α → History world → Prop} {op : world.Op}
    {next : world.Reply op → Program world.Op world.Reply α} (permitted : rule past op)
    (rest : ∀ choice before reply after, world.perform choice op before = some (reply, after) →
      Obeys rule task post (next reply) (.performed task op before reply :: past)) :
    Obeys rule task post (.request op next) past :=
  ⟨permitted, rest⟩

/-- The same for a single operation that is bound. -/
theorem obeys_ask {post : α → History world → Prop} {op : world.Op}
    {next : world.Reply op → Program world.Op world.Reply α} (permitted : rule past op)
    (rest : ∀ choice before reply after, world.perform choice op before = some (reply, after) →
      Obeys rule task post (next reply) (.performed task op before reply :: past)) :
    Obeys rule task post (Program.request op .pure >>= next) past :=
  ⟨permitted, rest⟩

theorem obeys_bind {post : β → History world → Prop} {middle : α → History world → Prop}
    {program : Program world.Op world.Reply α} {next : α → Program world.Op world.Reply β}
    (first : Obeys rule task middle program past)
    (rest : ∀ value current, middle value current → Obeys rule task post (next value) current) :
    Obeys rule task post (program >>= next) past := by
  induction program generalizing past with
  | pure value => exact rest value past first
  | request op tail ih =>
    exact ⟨first.1, fun choice before reply after performed => ih reply (first.2 choice before reply after performed)⟩

theorem Obeys.mono {first second : α → History world → Prop} {program : Program world.Op world.Reply α}
    (obeys : Obeys rule task first program past)
    (implies : ∀ value current, first value current → second value current) :
    Obeys rule task second program past := by
  induction program generalizing past with
  | pure value => exact implies value past obeys
  | request op tail ih =>
    exact ⟨obeys.1, fun choice before reply after performed => ih reply (obeys.2 choice before reply after performed)⟩

/-- The steps of a footprint, on top of what was done before. -/
def Continues (allowed : world.Op → Prop) (task : Nat) (past current : History world) : Prop :=
  ∃ steps, current = steps ++ past ∧ ∀ entry ∈ steps, ∃ op before reply,
    entry = .performed task op before reply ∧ allowed op

namespace Continues
variable {allowed : world.Op → Prop} {current : History world}

theorem refl (past : History world) : Continues allowed task past past :=
  ⟨[], rfl, fun _ member => nomatch member⟩

theorem trans {middle : History world} (first : Continues allowed task past middle)
    (later : Continues allowed task middle current) : Continues allowed task past current := by
  obtain ⟨early, rfl, listed⟩ := first
  obtain ⟨late, rfl, others⟩ := later
  refine ⟨late ++ early, (List.append_assoc ..).symm, fun entry member => ?_⟩
  rcases List.mem_append.mp member with new | old
  · exact others entry new
  · exact listed entry old

theorem one {op : world.Op} (before : world.Shared) (reply : world.Reply op) (permitted : allowed op) :
    Continues allowed task past (.performed task op before reply :: past) :=
  ⟨[_], rfl, fun _ member => ⟨op, before, reply, List.mem_singleton.mp member, permitted⟩⟩

theorem widen {more : world.Op → Prop} (later : Continues allowed task past current)
    (implies : ∀ op, allowed op → more op) : Continues more task past current := by
  obtain ⟨steps, rfl, listed⟩ := later
  refine ⟨steps, rfl, fun entry member => ?_⟩
  obtain ⟨op, before, reply, same, permitted⟩ := listed entry member
  exact ⟨op, before, reply, same, implies op permitted⟩

/-- What was done stays done. -/
theorem mem (later : Continues allowed task past current) {entry : Entry world} (member : entry ∈ past) :
    entry ∈ current := by
  obtain ⟨steps, rfl, _⟩ := later
  exact List.mem_append_right _ member

/-- What is new is allowed. -/
theorem new (later : Continues allowed task past current) {op : world.Op} {before : world.Shared}
    {reply : world.Reply op} (member : .performed task op before reply ∈ current) :
    .performed task op before reply ∈ past ∨ allowed op := by
  obtain ⟨steps, rfl, listed⟩ := later
  rcases List.mem_append.mp member with late | early
  · obtain ⟨_, _, _, same, permitted⟩ := listed _ late
    cases same
    exact .inr permitted
  · exact .inl early

end Continues

/-- A program that has a footprint leaves no other steps. -/
theorem Obeys.continues {allowed : world.Op → Prop} {possible : (op : world.Op) → world.Reply op → Prop}
    {returns : α → Prop} {post : α → History world → Prop} {program : Program world.Op world.Reply α}
    (obeys : Obeys rule task post program past)
    (lawful : ∀ choice op shared reply after, world.perform choice op shared = some (reply, after) → possible op reply)
    (uses : program.Uses allowed possible returns) :
    Obeys rule task (fun value current => post value current ∧ returns value ∧ Continues allowed task past current)
      program past := by
  induction program generalizing past with
  | pure value => exact ⟨obeys, uses, .refl past⟩
  | request op tail ih =>
    refine ⟨obeys.1, fun choice before reply after performed => ?_⟩
    have rest := uses.2 reply (lawful choice op before reply after performed)
    exact (ih reply (obeys.2 choice before reply after performed) rest).mono
      fun value current ⟨held, returned, later⟩ => ⟨held, returned, (Continues.one before reply uses.1).trans later⟩

/-- A footprint whose operations the rule never forbids. -/
theorem Obeys.of_uses {allowed : world.Op → Prop} {possible : (op : world.Op) → world.Reply op → Prop}
    {returns : α → Prop} {program : Program world.Op world.Reply α}
    (lawful : ∀ choice op shared reply after, world.perform choice op shared = some (reply, after) → possible op reply)
    (uses : program.Uses allowed possible returns) (permits : ∀ op current, allowed op → rule current op) :
    Obeys rule task (fun value current => returns value ∧ Continues allowed task past current) program past := by
  have obeys : Obeys rule task (fun _ _ => True) program past := by
    induction program generalizing past with
    | pure value => trivial
    | request op tail ih =>
      refine ⟨permits op past uses.1, fun choice before reply after performed => ?_⟩
      exact ih reply (uses.2 reply (lawful choice op before reply after performed))
  exact (obeys.continues lawful uses).mono fun _ _ kept => kept.2

/-- What a task knows stays known while it follows its rule, and its footprint tells
what it asks for. -/
theorem Obeys.within {allowed : world.Op → Prop} {possible : (op : world.Op) → world.Reply op → Prop}
    {returns : α → Prop} {knows : History world → Prop} {post : α → History world → Prop}
    {program : Program world.Op world.Reply α} (obeys : Obeys rule task post program past)
    (lawful : ∀ choice op shared reply after, world.perform choice op shared = some (reply, after) → possible op reply)
    (uses : program.Uses allowed possible returns) (stable : Stable task knows) (known : knows past) :
    Obeys (fun current op => rule current op ∧ allowed op ∧ knows current) task
      (fun value current => post value current ∧ knows current) program past := by
  induction program generalizing past with
  | pure value => exact ⟨obeys, known⟩
  | request op tail ih =>
    refine ⟨⟨obeys.1, uses.1, known⟩, fun choice before reply after performed => ?_⟩
    exact ih reply (obeys.2 choice before reply after performed)
      (uses.2 reply (lawful choice op before reply after performed)) (stable.performed op before reply past known)

/-- What a task knows and keeps by every step of its footprint, and that permits every
one of them. -/
theorem Obeys.of_knowing {allowed : world.Op → Prop} {possible : (op : world.Op) → world.Reply op → Prop}
    {returns : α → Prop} {knows : History world → Prop} {program : Program world.Op world.Reply α}
    (lawful : ∀ choice op shared reply after, world.perform choice op shared = some (reply, after) → possible op reply)
    (uses : program.Uses allowed possible returns)
    (kept : ∀ op before reply current, allowed op → knows current → knows (.performed task op before reply :: current))
    (permits : ∀ op current, allowed op → knows current → rule current op) (known : knows past) :
    Obeys rule task (fun value current => returns value ∧ knows current) program past := by
  induction program generalizing past with
  | pure value => exact ⟨uses, known⟩
  | request op tail ih =>
    refine ⟨permits op past uses.1 known, fun choice before reply after performed => ?_⟩
    exact ih reply (uses.2 reply (lawful choice op before reply after performed)) (kept op before reply past uses.1 known)

/-- A program that follows its rule is safe under every contract that asks for no more
than the rule gives. -/
theorem Obeys.safe {guard : Guard world} {contract : Contract world} {post final : α → History world → Prop}
    {program : Program world.Op world.Reply α} {trace : History world}
    (obeys : Obeys rule task post program (own task trace))
    (may : ∀ op trace shared, contract.valid trace shared → rule (own task trace) op →
      contract.may task op trace shared)
    (done : ∀ value trace, post value (own task trace) → final value trace) :
    Safe guard contract task final program trace := by
  induction program generalizing trace with
  | pure value => exact done value trace obeys
  | request op tail ih =>
    intro later shared grown valid
    have same := own_extends grown
    refine ⟨may op later shared valid (same ▸ obeys.1), fun choice reply after _ performed _ => ?_⟩
    apply ih reply
    rw [own_cons rfl, same]
    exact obeys.2 choice shared reply after performed

end Obeys
end Foundation
