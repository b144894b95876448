import Mathlib.Data.Prod.Lex
import Mathlib.Data.String.Basic
import Mathlib.Order.WithBot
import Wisphive.Foundation.Newest
import Wisphive.Retention

/-! What a pass of the retention is for: the rows that are left are the newest ones that
are no older than the cutoff, and the others are in the archive. The pass compares texts,
and its purpose speaks of the instants that the texts name. -/

namespace Wisphive.Retention
open Foundation

variable (clock : TextClock) (fromStr : String → Option Json) (parseFromRfc3339 : String → Option DateTime)

structure Limits where
  maxRows : Nat
  cutoff : DateTime
  deriving DecidableEq, Repr

/-- The instant that a row was resolved at, if its text names one. -/
def instant (row : LogRow) : Option DateTime :=
  parseFromRfc3339 (clock.text row.resolvedAt)

/-- A row that names no instant counts as older than every other. -/
def before (cutoff : DateTime) (row : LogRow) : Bool :=
  (instant clock parseFromRfc3339 row).all (· < cutoff)

/-- What the statements order by. -/
def textKey (row : LogRow) : Lex (String × String) :=
  toLex (clock.text row.resolvedAt, uuidText row.id)

def instantKey (row : LogRow) : Lex (WithBot DateTime × String) :=
  toLex ((instant clock parseFromRfc3339 row).elim ⊥ WithBot.some, uuidText row.id)

namespace Limits
variable (limits : Limits)

/-- The comparison of the first phase. -/
def expired (row : LogRow) : Bool :=
  clock.text row.resolvedAt < clock.toRfc3339 limits.cutoff

def older (row : LogRow) : Bool :=
  before clock parseFromRfc3339 limits.cutoff row

/-- The row is not too old, and fewer than `maxRows` such rows are behind it. -/
def chosen {Key : Type*} [LinearOrder Key] (key : LogRow → Key) (old : LogRow → Bool) (log : List LogRow)
    (row : LogRow) : Prop :=
  old row = false ∧ Newest.rank key (log.filter (!old ·)) row < limits.maxRows

instance {Key : Type*} [LinearOrder Key] {key : LogRow → Key} {old : LogRow → Bool} {log : List LogRow}
    {row : LogRow} : Decidable (limits.chosen key old log row) :=
  inferInstanceAs (Decidable (_ ∧ _))

/-- The choice by the texts, which is the one that a pass makes. -/
def chosenByText : List LogRow → LogRow → Prop :=
  limits.chosen (textKey clock) (limits.expired clock)

def chosenByInstant : List LogRow → LogRow → Prop :=
  limits.chosen (instantKey clock parseFromRfc3339) (limits.older clock parseFromRfc3339)

end Limits

namespace Run

/-- One undisturbed pass. Whether a file is set aside before a phase writes depends on its
size. -/
def Passes (initial : Start) (run : Run) (limits : Limits) (rotations : List Bool) (after : Run) : Prop :=
  (machine clock fromStr initial).run Machine.free run
      (.archiveAndPrune limits.maxRows limits.cutoff :: rotations.map .advance) = some after ∧
    after.sweep = .idle

/-- The purpose of a pass. -/
structure Pruned (limits : Limits) (run after : Run) : Prop where
  fresh : ∀ row ∈ after.log, limits.older clock parseFromRfc3339 row = false
  newest : Newest.Selects (instantKey clock parseFromRfc3339) limits.maxRows
    (run.log.filter (!limits.older clock parseFromRfc3339 ·)) after.log
  archived : ∃ rows, (after.log ++ rows).Perm run.log ∧
    after.lines = run.lines ++ rows.map (archiveEntry clock fromStr)

/-- Every pass with these limits meets its purpose, whatever it sets aside. -/
def Prunes (initial : Start) (run : Run) (limits : Limits) : Prop :=
  ∀ rotations after, run.Passes clock fromStr initial limits rotations after →
    run.Pruned clock fromStr parseFromRfc3339 limits after

end Run

def precedes {Key : Type*} [LinearOrder Key] (key : LogRow → Key) (row other : LogRow) : Prop :=
  key row < key other

/-- The texts of a log say what the instants say: against the text of any cutoff, and among
the rows that name an instant. -/
structure TextsAgree (log : List LogRow) : Prop where
  cutoffs : ∀ row ∈ log, ∀ cutoff : DateTime,
    clock.text row.resolvedAt < clock.toRfc3339 cutoff ↔ before clock parseFromRfc3339 cutoff row = true
  order : ∀ row ∈ log, ∀ other ∈ log, instant clock parseFromRfc3339 row ≠ none →
    instant clock parseFromRfc3339 other ≠ none →
    (precedes (textKey clock) row other ↔ precedes (instantKey clock parseFromRfc3339) row other)

end Wisphive.Retention
