import Mathlib.Algebra.Group.Nat.Defs
import Wisphive.Foundation.Assoc
import Wisphive.Foundation.Trace

/-! The login throttle: for every client address the failures, the lockout and the slots of
the attempts that are being verified. Instants and durations are nanoseconds. -/

namespace Wisphive
open Foundation

/-- Hard cap on the number of distinct (normalized) addresses. -/
def maxThrottleEntries : Nat := 10000

/-- Above this watermark a new address triggers a sweep. -/
def sweepHighWater : Nat := 1000

def evictionDenominator : Nat := 10

def milliseconds (count : Nat) : Nat := count * 10 ^ 6

def sweepGrace : Nat := milliseconds 60000

def staleInFlightAge : Nat := milliseconds 300000

inductive IpAddr where
  | v4 (address : BitVec 32)
  | v6 (address : BitVec 128)
  deriving DecidableEq, Repr

/-- IPv6 is aggregated to /64. An address that maps an IPv4 one is that address. -/
def normalizeIp : IpAddr → IpAddr
  | .v4 address => .v4 address
  | .v6 address =>
    if address >>> 32 = 0xffff then .v4 (address.truncate 32)
    else .v6 (address &&& (0xffffffffffffffff0000000000000000 : BitVec 128))

structure AttemptState where
  failures : Nat
  lockedUntil : Nat
  inFlight : Nat
  lastSeen : Nat
  deriving DecidableEq, Repr

abbrev ThrottleMap := List (IpAddr × AttemptState)

/-- The cap on the slots of one address, an unsigned integer of 32 bits other than zero, and the
ceiling of the backoff. -/
structure LoginThrottle where
  maxInFlight : Nat
  backoffCap : Nat
  positive : 0 < maxInFlight
  bounded : maxInFlight < 2 ^ 32

structure ThrottleDecision where
  allowed : Bool
  retryAfter : Option Nat
  deriving DecidableEq, Repr

def maxU32 : Nat := 2 ^ 32 - 1

def saturatingSucc (count : Nat) : Nat := min (count + 1) maxU32

/-- `min(cap, 250ms * 2^(N-1))`. The factor has 32 bits and saturates. -/
def backoffFor (failures cap : Nat) : Nat :=
  if failures = 0 then 0 else min (milliseconds 250 * min (2 ^ (failures - 1)) maxU32) cap

/-- The failure of one attempt. A lapsed lockout is renewed, and an active one is extended only
while a sibling is in flight. -/
def AttemptState.failed (entry : AttemptState) (now backoffCap : Nat) : AttemptState :=
  let failures := saturatingSucc entry.failures
  let lockedUntil :=
    if entry.lockedUntil ≤ now then now + backoffFor failures backoffCap
    else if 0 < entry.inFlight then max entry.lockedUntil (now + backoffFor failures backoffCap)
    else entry.lockedUntil
  { failures, lockedUntil, inFlight := entry.inFlight - 1, lastSeen := now }

namespace ThrottleMap

/-- The attempts of an address that are being verified. -/
def slots (map : ThrottleMap) (key : IpAddr) : Nat :=
  ((map.lookup key).map AttemptState.inFlight).getD 0

/-- What a sweep keeps: slots that are not stale, and lockouts up to a grace period. -/
def kept (now : Nat) (entry : IpAddr × AttemptState) : Bool :=
  if 0 < entry.2.inFlight then now - entry.2.lastSeen < staleInFlightAge
  else now < entry.2.lockedUntil + sweepGrace

def swept (map : ThrottleMap) (now : Nat) : ThrottleMap :=
  if sweepHighWater ≤ map.length then map.filter (kept now) else map

def evictable (map : ThrottleMap) : ThrottleMap :=
  map.filter (·.2.inFlight = 0)

/-- How many entries are evicted at once. -/
def evictions (map : ThrottleMap) : Nat :=
  min (map.length - (maxThrottleEntries - maxThrottleEntries / evictionDenominator)) map.evictable.length

/-- So many evictable keys, none of them seen later than one that stays. The order among
entries that were seen at the same time is not fixed. -/
def Oldest (map : ThrottleMap) (count : Nat) (chosen : List IpAddr) : Prop :=
  chosen.Nodup ∧ chosen.length = count ∧ (∀ key ∈ chosen, key ∈ map.evictable.map Prod.fst) ∧
    ∀ gone ∈ map.evictable, gone.1 ∈ chosen → ∀ left ∈ map.evictable, left.1 ∉ chosen →
      gone.2.lastSeen ≤ left.2.lastSeen

instance (map : ThrottleMap) (count : Nat) (chosen : List IpAddr) : Decidable (map.Oldest count chosen) :=
  inferInstanceAs (Decidable (_ ∧ _))

/-- Whether there is room for one more entry, and the map after sweep and eviction. `none`
refuses a choice that the eviction cannot make. -/
def ensureRoomForNewEntry (map : ThrottleMap) (now : Nat) (chosen : List IpAddr) : Option (Bool × ThrottleMap) :=
  let swept := map.swept now
  if swept.length < maxThrottleEntries then if chosen = [] then some (true, swept) else none
  else if swept.Oldest swept.evictions chosen then
    let left := swept.filter (·.1 ∉ chosen)
    some (left.length < maxThrottleEntries, left)
  else none

/-- The entry of an address changes, if it has one. -/
def modify (map : ThrottleMap) (key : IpAddr) (change : AttemptState → AttemptState) : ThrottleMap :=
  match map.lookup key with
  | none => map
  | some entry => Assoc.put map key (change entry)

def applyFailure (map : ThrottleMap) (key : IpAddr) (now backoffCap : Nat) : ThrottleMap :=
  map.modify key (·.failed now backoffCap)

/-- Only the own slot is released. The entry goes with its last slot. -/
def applySuccess (map : ThrottleMap) (key : IpAddr) (now : Nat) : ThrottleMap :=
  match map.lookup key with
  | none => map
  | some entry =>
    if entry.inFlight - 1 = 0 then Assoc.erase map key
    else Assoc.put map key { failures := 0, lockedUntil := now, inFlight := entry.inFlight - 1, lastSeen := now }

/-- A slot that was released is neither a failure nor a success. -/
def applyRelease (map : ThrottleMap) (key : IpAddr) : ThrottleMap :=
  map.modify key fun entry => { entry with inFlight := entry.inFlight - 1 }

end ThrottleMap

namespace LoginThrottle

/-- A slot is reserved, or the attempt is refused. -/
def tryBeginAttempt (throttle : LoginThrottle) (map : ThrottleMap) (ip : IpAddr) (now : Nat) (chosen : List IpAddr) :
    Option (Except ThrottleDecision IpAddr × ThrottleMap) :=
  let key := normalizeIp ip
  match map.lookup key with
  | some entry =>
    if chosen ≠ [] then none
    else if now < entry.lockedUntil then
      some (.error { allowed := false, retryAfter := some (entry.lockedUntil - now) }, map)
    else if throttle.maxInFlight ≤ entry.inFlight then
      some (.error { allowed := false, retryAfter := some (milliseconds 250) }, map)
    else
      some (.ok key, Assoc.put map key { entry with inFlight := saturatingSucc entry.inFlight, lastSeen := now })
  | none =>
    match map.ensureRoomForNewEntry now chosen with
    | none => none
    | some (false, left) => some (.error { allowed := false, retryAfter := some (milliseconds 1000) }, left)
    | some (true, left) =>
      some (.ok key, Assoc.put left key { failures := 0, lockedUntil := now, inFlight := saturatingSucc 0, lastSeen := now })

end LoginThrottle

/-- What a guard was consumed for. A success reads its time before it waits for the lock. -/
inductive AttemptRecord where
  | failure
  | success (read : Nat)
  | release
  deriving DecidableEq, Repr

namespace AttemptRecord

def readTime : AttemptRecord → Option Nat
  | .success read => some read
  | .failure | .release => none

/-- What is done under the lock. -/
def apply (record : AttemptRecord) (map : ThrottleMap) (key : IpAddr) (now backoffCap : Nat) : ThrottleMap :=
  match record with
  | .failure => map.applyFailure key now backoffCap
  | .success read => map.applySuccess key read
  | .release => map.applyRelease key

end AttemptRecord

/-- A reservation that is still held, and when it was granted. A consumed one waits for the
lock. -/
structure AttemptGuard where
  id : Nat
  key : IpAddr
  acquired : Nat
  consumed : Option AttemptRecord := none
  deriving DecidableEq, Repr

/-- The throttle with the guards that are held. `seen` has the last use of each address, and
`refused` the attempts that were refused to idle addresses. -/
structure ThrottleRun where
  map : ThrottleMap := []
  clock : Nat := 0
  nextId : Nat := 0
  guards : List AttemptGuard := []
  seen : List (IpAddr × Nat) := []
  refused : List (IpAddr × Nat) := []
  deriving Repr

/-- An attempt and a drop try the lock at their own time. The three records consume the guard,
and `takeLock` is the end of their wait. A request that is dropped drops its guard. -/
inductive ThrottleEvent where
  | tryBegin (ip : IpAddr) (now : Nat) (chosen : List IpAddr)
  | recordFailure (guard now : Nat)
  | recordSuccess (guard now : Nat)
  | releaseSlot (guard now : Nat)
  | takeLock (guard now : Nat)
  | dropGuard (guard now : Nat) (contended : Bool)
  deriving DecidableEq, Repr

namespace ThrottleEvent

def time : ThrottleEvent → Nat
  | .tryBegin _ now _ | .recordFailure _ now | .recordSuccess _ now | .releaseSlot _ now | .takeLock _ now
  | .dropGuard _ now _ => now

/-- The guard that is gone after an operation. -/
def ended : ThrottleEvent → Option Nat
  | .takeLock guard _ | .dropGuard guard _ _ => some guard
  | _ => none

def contended : ThrottleEvent → Bool
  | .dropGuard _ _ contended => contended
  | _ => false

end ThrottleEvent

namespace ThrottleRun

/-- An address that was used, has no guard, is not locked out, and whose last use is older
than a stale slot. -/
def Idle (run : ThrottleRun) (key : IpAddr) (now : Nat) : Prop :=
  (∃ last ∈ run.seen.lookup key, last + staleInFlightAge < now) ∧ (∀ guard ∈ run.guards, guard.key ≠ key) ∧
    ∀ entry ∈ run.map.lookup key, entry.lockedUntil ≤ now

instance (run : ThrottleRun) (key : IpAddr) (now : Nat) : Decidable (run.Idle key now) :=
  inferInstanceAs (Decidable (_ ∧ _))

def begin (throttle : LoginThrottle) (run : ThrottleRun) (ip : IpAddr) (now : Nat) (chosen : List IpAddr) :
    Option ThrottleRun :=
  match throttle.tryBeginAttempt run.map ip now chosen with
  | none => none
  | some (.ok key, map) =>
    some { run with
      map, clock := now, nextId := run.nextId + 1
      guards := { id := run.nextId, key, acquired := now } :: run.guards
      seen := Assoc.put run.seen key now }
  | some (.error _, map) =>
    some { run with
      map, clock := now
      refused := if run.Idle (normalizeIp ip) now then (normalizeIp ip, now) :: run.refused else run.refused }

def held (run : ThrottleRun) (guard : Nat) : Option AttemptGuard :=
  run.guards.find? (·.id = guard)

/-- `consumed` is set before the lock is awaited. -/
def consume (run : ThrottleRun) (guard now : Nat) (record : AttemptRecord) : Option ThrottleRun :=
  match run.held guard with
  | none => none
  | some held =>
    if held.consumed.isSome then none
    else
      some { run with
        clock := now
        guards := run.guards.map fun other =>
          if other.id = guard then { other with consumed := some record } else other }

/-- A guard goes, and the map changes by it. -/
def finish (run : ThrottleRun) (guard now : Nat) (change : AttemptGuard → Option ThrottleMap) : Option ThrottleRun :=
  match run.held guard with
  | none => none
  | some held =>
    (change held).map fun map =>
      { run with
        map, clock := now, guards := run.guards.filter (·.id ≠ guard)
        seen := Assoc.put run.seen held.key now }

/-- The drop of a consumed guard returns at once, and one that finds the lock taken leaves the
map as it is, too. -/
def dropped (run : ThrottleRun) (held : AttemptGuard) (now backoffCap : Nat) (contended : Bool) : ThrottleMap :=
  if held.consumed.isSome ∨ contended then run.map else run.map.applyFailure held.key now backoffCap

/-- The clock does not go back. -/
def step (throttle : LoginThrottle) (run : ThrottleRun) (event : ThrottleEvent) : Option ThrottleRun :=
  if event.time < run.clock then none
  else match event with
    | .tryBegin ip now chosen => run.begin throttle ip now chosen
    | .recordFailure guard now => run.consume guard now .failure
    | .recordSuccess guard now => run.consume guard now (.success now)
    | .releaseSlot guard now => run.consume guard now .release
    | .takeLock guard now =>
      run.finish guard now fun held => held.consumed.map (·.apply run.map held.key now throttle.backoffCap)
    | .dropGuard guard now contended =>
      run.finish guard now fun held => some (run.dropped held now throttle.backoffCap contended)

def machine (throttle : LoginThrottle) : Machine ThrottleRun ThrottleEvent where
  start := {}
  step run event := run.step throttle event

/-- No drop finds the lock taken, and every guard that is held is younger than a stale slot,
unless this is the operation that ends it. -/
def Timely (run : ThrottleRun) (event : ThrottleEvent) : Prop :=
  event.contended = false ∧ ∀ guard ∈ run.guards, event.time < guard.acquired + staleInFlightAge ∨
    event.ended = some guard.id ∧ event.time ≤ guard.acquired + staleInFlightAge

instance (run : ThrottleRun) (event : ThrottleEvent) : Decidable (run.Timely event) :=
  inferInstanceAs (Decidable (_ ∧ _))

/-- No request is dropped while it waits for the lock, and its address was granted no attempt
since a success read its time. -/
def Awaited (run : ThrottleRun) : ThrottleEvent → Prop
  | .dropGuard guard _ _ => ∀ held ∈ run.held guard, held.consumed = none
  | .takeLock guard _ => ∀ held ∈ run.held guard, ∀ read ∈ held.consumed.bind AttemptRecord.readTime,
      ∀ other ∈ run.guards, other.key = held.key → other.acquired ≤ read
  | _ => True

instance (run : ThrottleRun) (event : ThrottleEvent) : Decidable (run.Awaited event) := by
  cases event <;> unfold Awaited <;> infer_instance

def Undisturbed (run : ThrottleRun) (event : ThrottleEvent) : Prop :=
  run.Timely event ∧ run.Awaited event

instance (run : ThrottleRun) (event : ThrottleEvent) : Decidable (run.Undisturbed event) :=
  inferInstanceAs (Decidable (_ ∧ _))

/-- The operation counts a failure of the guard. -/
def Fails (held : AttemptGuard) : ThrottleEvent → Prop
  | .takeLock guard _ => held.id = guard ∧ held.consumed = some .failure
  | .dropGuard guard _ contended => held.id = guard ∧ held.consumed = none ∧ contended = false
  | _ => False

/-- The operation records a success of the address. -/
def Succeeds (key : IpAddr) (run : ThrottleRun) : ThrottleEvent → Prop
  | .takeLock guard _ => ∃ held ∈ run.guards, held.id = guard ∧ held.key = key ∧
      (held.consumed.bind AttemptRecord.readTime).isSome
  | _ => False

instance (key : IpAddr) (run : ThrottleRun) (event : ThrottleEvent) : Decidable (run.Succeeds key event) := by
  cases event <;> unfold Succeeds <;> infer_instance

def Evicts (key : IpAddr) : ThrottleEvent → Prop
  | .tryBegin _ _ chosen => key ∈ chosen
  | _ => False

instance (key : IpAddr) (event : ThrottleEvent) : Decidable (Evicts key event) := by
  cases event <;> unfold Evicts <;> infer_instance

section promises
variable (throttle : LoginThrottle) (fair : ThrottleRun → ThrottleEvent → Prop) [∀ run event, Decidable (fair run event)]

/-- A fair operation that leaves the lockout of the address alone. -/
def Spares (key : IpAddr) (run : ThrottleRun) (event : ThrottleEvent) : Prop :=
  fair run event ∧ ¬ run.Succeeds key event ∧ ¬ Evicts key event

instance (key : IpAddr) (run : ThrottleRun) (event : ThrottleEvent) : Decidable (run.Spares fair key event) :=
  inferInstanceAs (Decidable (_ ∧ _))

/-- The address stays locked up to the deadline in every fair run that does not undo it. -/
def LockedFor (key : IpAddr) (deadline : Nat) (run : ThrottleRun) : Prop :=
  ∀ events final, (machine throttle).run (Spares fair key) run events = some final → final.clock < deadline →
    ∃ left ∈ final.map.lookup key, deadline ≤ left.lockedUntil

/-- Slots are guards and do not exceed the limit, and the map does not exceed its cap. Only an
unlocked address is granted, a failure is counted and locks its address for the backoff of the
count, and only a full map evicts. -/
structure Safe (run : ThrottleRun) : Prop where
  slots : ∀ key, run.map.slots key = run.guards.countP (·.key = key)
  limited : ∀ key, run.map.slots key ≤ throttle.maxInFlight
  capped : run.map.length ≤ maxThrottleEntries
  granted : ∀ ip now chosen granted map, throttle.tryBeginAttempt run.map ip now chosen = some (.ok granted, map) →
    granted = normalizeIp ip ∧ ∀ entry ∈ run.map.lookup granted, entry.lockedUntil ≤ now
  failed : ∀ event next, ∀ held ∈ run.guards, Fails held event → fair run event → run.step throttle event = some next →
    ∃ before ∈ run.map.lookup held.key, ∃ entry ∈ next.map.lookup held.key,
      entry.failures = saturatingSucc before.failures ∧
      next.LockedFor throttle fair held.key (event.time + backoffFor entry.failures throttle.backoffCap)
  evicted : ∀ ip now chosen next, run.step throttle (.tryBegin ip now chosen) = some next → chosen ≠ [] →
    run.map.length = maxThrottleEntries

end promises

/-- An attempt of an idle address finds its entry below the limit, or it has none and the sweep
leaves room or an entry without a slot. -/
def Admits (throttle : LoginThrottle) (run : ThrottleRun) : ThrottleEvent → Prop
  | .tryBegin ip now _ => run.Idle (normalizeIp ip) now →
      (∀ entry ∈ run.map.lookup (normalizeIp ip), entry.inFlight < throttle.maxInFlight) ∧
        (run.map.lookup (normalizeIp ip) = none →
          (run.map.swept now).length < maxThrottleEntries ∨ (run.map.swept now).evictable ≠ [])
  | _ => True

instance (throttle : LoginThrottle) (run : ThrottleRun) (event : ThrottleEvent) : Decidable (run.Admits throttle event) := by
  cases event <;> unfold Admits <;> infer_instance

end ThrottleRun
end Wisphive
