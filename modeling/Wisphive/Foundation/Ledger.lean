import Mathlib.Data.List.Nodup
import Mathlib.Logic.Function.Basic

/-! Calls that take effect once at most, and locks with one holder. -/

namespace Foundation

/-- Calls that are in flight, that have taken effect and that have returned. -/
structure Ledger (Worker : Type*) where
  inFlight : Worker → Option (Nat × Bool)
  calls : Nat
  committed : List Nat
  results : List (Nat × Bool)

namespace Ledger
variable {Worker : Type*} {ledger : Ledger Worker} {worker : Worker}

/-- Each call is in flight once at most, takes effect once at most, and is told so exactly
if it did. -/
structure Sound (ledger : Ledger Worker) : Prop where
  fresh : ∀ worker call done, ledger.inFlight worker = some (call, done) → call < ledger.calls
  single : ∀ first second call done other, ledger.inFlight first = some (call, done) →
    ledger.inFlight second = some (call, other) → first = second
  marked : ∀ worker call done, ledger.inFlight worker = some (call, done) → (done = true ↔ call ∈ ledger.committed)
  known : ∀ call ∈ ledger.committed, call < ledger.calls
  once : ledger.committed.Nodup
  told : ∀ call done, (call, done) ∈ ledger.results → (done = true ↔ call ∈ ledger.committed) ∧ call < ledger.calls
  reported : ∀ call done, (call, done) ∈ ledger.results → ∀ worker other, ledger.inFlight worker ≠ some (call, other)

theorem Sound.start : Sound ({ inFlight := fun _ => none, calls := 0, committed := [], results := [] } : Ledger Worker) where
  fresh _ _ _ held := absurd held (Option.some_ne_none _).symm
  single _ _ _ _ _ held := absurd held (Option.some_ne_none _).symm
  marked _ _ _ held := absurd held (Option.some_ne_none _).symm
  known _ member := absurd member List.not_mem_nil
  once := List.nodup_nil
  told _ _ member := absurd member List.not_mem_nil
  reported _ _ member := absurd member List.not_mem_nil

/-- A call may be lost from sight at any time. -/
theorem Sound.forget (sound : ledger.Sound) {inFlight : Worker → Option (Nat × Bool)}
    (kept : ∀ worker, inFlight worker = none ∨ inFlight worker = ledger.inFlight worker) :
    Sound { ledger with inFlight } := by
  have seen : ∀ {worker call}, inFlight worker = some call → ledger.inFlight worker = some call := by
    intro worker call held
    rcases kept worker with lost | same
    · exact absurd (lost.symm.trans held) (Option.some_ne_none _).symm
    · exact same ▸ held
  exact {
    fresh := fun worker call done held => sound.fresh worker call done (seen held)
    single := fun first second call done other held also => sound.single first second call done other (seen held) (seen also)
    marked := fun worker call done held => sound.marked worker call done (seen held)
    known := sound.known
    once := sound.once
    told := sound.told
    reported := fun call done member worker other held => sound.reported call done member worker other (seen held) }

variable [DecidableEq Worker]

theorem Sound.call (sound : ledger.Sound) (worker : Worker) :
    Sound { ledger with
      inFlight := Function.update ledger.inFlight worker (some (ledger.calls, false))
      calls := ledger.calls + 1 } := by
  have cases : ∀ {other call done}, Function.update ledger.inFlight worker (some (ledger.calls, false)) other = some (call, done) →
      (other = worker ∧ call = ledger.calls ∧ done = false) ∨ (ledger.inFlight other = some (call, done) ∧ call < ledger.calls) := by
    intro other call done held
    by_cases same : other = worker
    · subst same
      rw [Function.update_self] at held
      cases held
      exact .inl ⟨rfl, rfl, rfl⟩
    · rw [Function.update_of_ne same] at held
      exact .inr ⟨held, sound.fresh _ _ _ held⟩
  refine ⟨?_, ?_, ?_, fun call member => Nat.lt_succ_of_lt (sound.known call member), sound.once, ?_, ?_⟩
  · intro other call done held
    rcases cases held with ⟨_, rfl, _⟩ | ⟨_, less⟩
    · exact Nat.lt_succ_self _
    · exact Nat.lt_succ_of_lt less
  · intro first second call done other held also
    rcases cases held with ⟨rfl, rfl, _⟩ | ⟨held, less⟩ <;> rcases cases also with ⟨rfl, same, _⟩ | ⟨also, later⟩
    · rfl
    · exact absurd later (Nat.lt_irrefl _)
    · exact absurd less (same ▸ Nat.lt_irrefl _)
    · exact sound.single _ _ _ _ _ held also
  · intro other call done held
    rcases cases held with ⟨_, rfl, rfl⟩ | ⟨held, _⟩
    · exact ⟨fun done => absurd done Bool.false_ne_true, fun member => absurd (sound.known _ member) (Nat.lt_irrefl _)⟩
    · exact sound.marked _ _ _ held
  · intro call done member
    obtain ⟨told, less⟩ := sound.told call done member
    exact ⟨told, Nat.lt_succ_of_lt less⟩
  · intro call done member other also held
    rcases cases held with ⟨_, rfl, _⟩ | ⟨held, _⟩
    · exact absurd (sound.told _ _ member).2 (Nat.lt_irrefl _)
    · exact sound.reported call done member other also held

theorem Sound.commit (sound : ledger.Sound) {call : Nat} (flies : ledger.inFlight worker = some (call, false)) :
    Sound { ledger with
      inFlight := Function.update ledger.inFlight worker (some (call, true))
      committed := ledger.committed ++ [call] } := by
  have absent : call ∉ ledger.committed := fun member => Bool.false_ne_true ((sound.marked _ _ _ flies).mpr member)
  have cases : ∀ {other number done}, Function.update ledger.inFlight worker (some (call, true)) other = some (number, done) →
      (other = worker ∧ number = call ∧ done = true) ∨ (ledger.inFlight other = some (number, done) ∧ number ≠ call) := by
    intro other number done held
    by_cases same : other = worker
    · subst same
      rw [Function.update_self] at held
      cases held
      exact .inl ⟨rfl, rfl, rfl⟩
    · rw [Function.update_of_ne same] at held
      refine .inr ⟨held, ?_⟩
      rintro rfl
      exact same (sound.single _ _ _ _ _ held flies)
  have grown : ∀ {number}, number ≠ call → (number ∈ ledger.committed ++ [call] ↔ number ∈ ledger.committed) := by
    intro number other
    rw [List.mem_append, List.mem_singleton]
    exact or_iff_left other
  refine ⟨?_, ?_, ?_, ?_, List.nodup_append.mpr ⟨sound.once, List.nodup_singleton _, ?_⟩, ?_, ?_⟩
  · intro other number done held
    rcases cases held with ⟨_, rfl, _⟩ | ⟨held, _⟩
    · exact sound.fresh _ _ _ flies
    · exact sound.fresh _ _ _ held
  · intro first second number done other held also
    rcases cases held with ⟨rfl, rfl, _⟩ | ⟨held, apart⟩ <;> rcases cases also with ⟨rfl, same, _⟩ | ⟨also, differs⟩
    · rfl
    · exact absurd rfl differs
    · exact absurd same apart
    · exact sound.single _ _ _ _ _ held also
  · intro other number done held
    rcases cases held with ⟨_, rfl, rfl⟩ | ⟨held, apart⟩
    · exact ⟨fun _ => List.mem_append_right _ (List.mem_singleton_self _), fun _ => rfl⟩
    · exact (sound.marked _ _ _ held).trans (grown apart).symm
  · intro number member
    rcases List.mem_append.mp member with before | now
    · exact sound.known _ before
    · rw [List.mem_singleton.mp now]
      exact sound.fresh _ _ _ flies
  · rintro number member other now rfl
    exact absent (List.mem_singleton.mp now ▸ member)
  · intro number done member
    have apart : number ≠ call := by
      rintro rfl
      exact sound.reported _ _ member _ _ flies
    obtain ⟨told, less⟩ := sound.told _ _ member
    exact ⟨told.trans (grown apart).symm, less⟩
  · intro number done member other also held
    rcases cases held with ⟨_, rfl, _⟩ | ⟨held, _⟩
    · exact sound.reported _ _ member _ _ flies
    · exact sound.reported _ _ member _ _ held

theorem Sound.report (sound : ledger.Sound) {call : Nat} {done : Bool} (flies : ledger.inFlight worker = some (call, done)) :
    Sound { ledger with
      inFlight := Function.update ledger.inFlight worker none
      results := ledger.results ++ [(call, done)] } := by
  have lost : ∀ other, Function.update ledger.inFlight worker none other = none ∨
      Function.update ledger.inFlight worker none other = ledger.inFlight other := by
    intro other
    by_cases same : other = worker
    · exact .inl (same ▸ Function.update_self ..)
    · exact .inr (Function.update_of_ne same ..)
  have quiet := sound.forget lost
  refine { quiet with told := ?_, reported := ?_ }
  · intro number other member
    rcases List.mem_append.mp member with before | now
    · exact sound.told _ _ before
    · cases List.mem_singleton.mp now
      exact ⟨sound.marked _ _ _ flies, sound.fresh _ _ _ flies⟩
  · intro number other member busy also held
    rcases List.mem_append.mp member with before | now
    · exact quiet.reported _ _ before _ _ held
    · cases List.mem_singleton.mp now
      dsimp only at held
      by_cases same : busy = worker
      · rw [same, Function.update_self] at held
        cases held
      · rw [Function.update_of_ne same] at held
        exact same (sound.single _ _ _ _ _ held flies)

end Ledger

/-- Who holds a lock is the one worker that stands where it is held. -/
def Holds {Worker : Type*} (holder : Option Worker) (holding : Worker → Prop) : Prop :=
  ∀ worker, holder = some worker ↔ holding worker

namespace Holds
variable {Worker : Type*} {holder : Option Worker} {holding after : Worker → Prop} {worker : Worker}

theorem same (holds : Holds holder holding) (kept : ∀ other, after other ↔ holding other) : Holds holder after :=
  fun other => (holds other).trans (kept other).symm

theorem grab (free : Holds none holding) (taken : ∀ other, after other ↔ other = worker ∨ holding other) :
    Holds (some worker) after := by
  intro other
  have idle : ¬ holding other := fun held => absurd ((free other).mpr held) (Option.some_ne_none _).symm
  rw [taken, or_iff_left idle, Option.some.injEq, eq_comm]

theorem release (holds : Holds holder holding) (held : holding worker)
    (left : ∀ other, after other ↔ other ≠ worker ∧ holding other) : Holds none after := by
  intro other
  refine ⟨fun none => absurd none (Option.some_ne_none _).symm, fun still => ?_⟩
  obtain ⟨apart, also⟩ := (left other).mp still
  exact absurd (Option.some.inj (((holds other).mpr also).symm.trans ((holds worker).mpr held))) apart

theorem loss (holds : Holds holder holding) {keeps : Worker → Bool}
    (left : ∀ other, after other ↔ keeps other = true ∧ holding other) : Holds (holder.filter keeps) after := by
  intro other
  rw [Option.filter_eq_some_iff, holds, left, and_comm]

end Holds

end Foundation
