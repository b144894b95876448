import Wisphive.Foundation.Assoc
import Wisphive.Foundation.SlidingWindow

/-! The sliding-window limiters of the daemon: one for replays of a terminal by the requester,
one for failed handshakes by the user of the peer. Times are in nanoseconds. -/

namespace Wisphive
open Foundation

/-- The hits of each key that were granted, and the limits. -/
structure RateLimiter (Key : Type) [DecidableEq Key] where
  inner : List (Key × List Nat)
  keyed : Assoc.Keyed inner
  window : Nat
  maxPerWindow : Nat

namespace RateLimiter

/-- An attempt for a key at a time. -/
abbrev Attempt (Key : Type) := Key × Nat

variable {Key : Type} [DecidableEq Key]

def withLimits (window maxPerWindow : Nat) : RateLimiter Key where
  inner := []
  keyed := Assoc.keyed_nil
  window
  maxPerWindow

/-- The hits that have not left the window. A key without any is dropped. -/
def retained (window now : Nat) (inner : List (Key × List Nat)) : List (Key × List Nat) :=
  (inner.map fun entry => (entry.1, entry.2.filter fun hit => now - hit < window)).filter fun entry => !entry.2.isEmpty

omit [DecidableEq Key] in
theorem retained_keyed {window now : Nat} {inner : List (Key × List Nat)} (keyed : Assoc.Keyed inner) :
    Assoc.Keyed (retained window now inner) := by
  apply Assoc.Keyed.filter
  rw [Assoc.Keyed, List.map_map]
  exact keyed

/-- Whether an attempt fits the budget. A denied one is not recorded, but its key is entered. -/
def tryAcquire (limiter : RateLimiter Key) (key : Key) (now : Nat) : Bool × RateLimiter Key :=
  let inner := retained limiter.window now limiter.inner
  let keyed := retained_keyed limiter.keyed
  let hits := (inner.lookup key).getD []
  if limiter.maxPerWindow ≤ hits.length then
    (false, { limiter with inner := Assoc.put inner key hits, keyed := keyed.put key hits })
  else (true, { limiter with inner := Assoc.put inner key (hits ++ [now]), keyed := keyed.put key (hits ++ [now]) })

/-- The limiter after attempts, which take its lock one after the other. -/
def after (limiter : RateLimiter Key) (attempts : List (Attempt Key)) : RateLimiter Key :=
  attempts.foldl (fun limiter attempt => (limiter.tryAcquire attempt.1 attempt.2).2) limiter

/-- The attempts with their outcomes. -/
def verdicts (limiter : RateLimiter Key) : List (Attempt Key) → List (Attempt Key × Bool)
  | [] => []
  | attempt :: rest =>
    (attempt, (limiter.tryAcquire attempt.1 attempt.2).1) :: (limiter.tryAcquire attempt.1 attempt.2).2.verdicts rest

/-- The times at which attempts for a key were granted. -/
def grants (limiter : RateLimiter Key) (key : Key) (attempts : List (Attempt Key)) : List Nat :=
  ((limiter.verdicts attempts).filter fun verdict => verdict.2 ∧ verdict.1.1 = key).map (·.1.2)

/-- No attempt is before an earlier one. -/
def InOrder (attempts : List (Attempt Key)) : Prop :=
  attempts.Pairwise fun earlier later => earlier.2 ≤ later.2

end RateLimiter

/-- Replays of a terminal, by the label of the requester. -/
abbrev ReplayRateLimiter := RateLimiter String

namespace ReplayRateLimiter

def replayWindow : Nat := 60 * 1000000000

def replayMaxPerWindow : Nat := 10

def new : ReplayRateLimiter :=
  RateLimiter.withLimits replayWindow replayMaxPerWindow

end ReplayRateLimiter

/-- Handshakes of an unsupported version, by the user id of the peer. -/
abbrev BadHelloRateLimiter := RateLimiter UInt32

namespace BadHelloRateLimiter

def badHelloWindow : Nat := 60 * 1000000000

def badHelloMaxPerWindow : Nat := 10

def new : BadHelloRateLimiter :=
  RateLimiter.withLimits badHelloWindow badHelloMaxPerWindow

end BadHelloRateLimiter
end Wisphive
