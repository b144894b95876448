import Mathlib.Tactic
import Wisphive.LoginThrottle

/-! The slots and lockouts of the login throttle over whole runs. -/

namespace Wisphive
open Foundation

theorem staleInFlightAge_pos : 0 < staleInFlightAge := by
  decide

theorem saturatingSucc_eq {count : Nat} (below : count < maxU32) : saturatingSucc count = count + 1 :=
  Nat.min_eq_left below

namespace AttemptState
variable {entry : AttemptState} {now cap : Nat}

theorem failed_extends : entry.lockedUntil ≤ (entry.failed now cap).lockedUntil := by
  unfold failed
  simp only []
  split
  · next lapsed => exact lapsed.trans (Nat.le_add_right ..)
  · split
    · exact Nat.le_max_left ..
    · exact Nat.le_refl _

/-- A failure that holds a slot locks at least as long as its backoff. -/
theorem failed_locks (held : 0 < entry.inFlight) :
    now + backoffFor (entry.failed now cap).failures cap ≤ (entry.failed now cap).lockedUntil := by
  unfold failed
  simp only []
  split
  · exact Nat.le_refl _
  · exact Nat.le_max_right ..

end AttemptState

namespace ThrottleMap
variable {map left before after : ThrottleMap} {key other : IpAddr} {entry : AttemptState} {now cap : Nat}
  {room : Bool} {chosen : List IpAddr}

theorem slots_some (found : map.lookup key = some entry) : map.slots key = entry.inFlight := by
  simp [slots, found]

theorem slots_none (absent : map.lookup key = none) : map.slots key = 0 := by
  simp [slots, absent]

theorem slots_congr (same : after.lookup key = before.lookup key) : after.slots key = before.slots key := by
  rw [slots, slots, same]

theorem slots_put : (slots (Assoc.put map key entry) other) = if other = key then entry.inFlight else map.slots other := by
  rw [slots, Assoc.lookup_put]
  split <;> rfl

/-- What makes room: entries are only removed, each of them for one of three reasons. -/
structure Cleared (map : ThrottleMap) (now : Nat) (chosen : List IpAddr) (room : Bool) (left : ThrottleMap) : Prop where
  filtered : ∃ keeps, left = map.filter keeps
  room_iff : room = true ↔ left.length < maxThrottleEntries
  removed : ∀ entry ∈ map, entry ∉ left → (0 < entry.2.inFlight ∧ staleInFlightAge ≤ now - entry.2.lastSeen) ∨
    (entry.2.inFlight = 0 ∧ (entry.2.lockedUntil + sweepGrace ≤ now ∨ entry.1 ∈ chosen))
  full : chosen ≠ [] → maxThrottleEntries ≤ map.length

theorem swept_filter (map : ThrottleMap) (now : Nat) : ∃ keeps, map.swept now = map.filter keeps := by
  unfold swept
  split
  · exact ⟨_, rfl⟩
  · exact ⟨fun _ => true, by simp⟩

theorem length_swept_le : (map.swept now).length ≤ map.length := by
  obtain ⟨keeps, same⟩ := swept_filter map now
  rw [same]
  exact List.length_filter_le ..

theorem swept_removed {entry : IpAddr × AttemptState} (member : entry ∈ map) (gone : entry ∉ map.swept now) :
    (0 < entry.2.inFlight ∧ staleInFlightAge ≤ now - entry.2.lastSeen) ∨
      (entry.2.inFlight = 0 ∧ entry.2.lockedUntil + sweepGrace ≤ now) := by
  unfold swept at gone
  split at gone
  · have dropped : kept now entry = false := by
      cases keeps : kept now entry with
      | false => rfl
      | true => exact absurd (List.mem_filter.mpr ⟨member, keeps⟩) gone
    unfold kept at dropped
    split at dropped
    · next held =>
      have stale := of_decide_eq_false dropped
      exact .inl ⟨held, Nat.le_of_not_lt stale⟩
    · next released =>
      have lapsed := of_decide_eq_false dropped
      exact .inr ⟨by omega, by omega⟩
  · exact absurd member gone

/-- Only an entry without a slot is chosen. -/
theorem Oldest.released {count : Nat} {entry : IpAddr × AttemptState} (oldest : map.Oldest count chosen)
    (keyed : Assoc.Keyed map) (member : entry ∈ map) (picked : entry.1 ∈ chosen) : entry.2.inFlight = 0 := by
  obtain ⟨other, evicted, same⟩ := List.mem_map.mp (oldest.2.2.1 entry.1 picked)
  obtain ⟨stays, released⟩ := List.mem_filter.mp evicted
  rw [← List.inj_on_of_nodup_map keyed stays member same]
  exact of_decide_eq_true released

theorem ensureRoom_cleared (keyed : Assoc.Keyed map)
    (taken : map.ensureRoomForNewEntry now chosen = some (room, left)) :
    map.Cleared now chosen room left := by
  obtain ⟨keeps, same⟩ := swept_filter map now
  unfold ensureRoomForNewEntry at taken
  simp only [] at taken
  split at taken
  · next below =>
    split at taken
    · next none_chosen =>
      cases taken
      refine ⟨⟨keeps, same⟩, ⟨fun _ => below, fun _ => rfl⟩, ?_, fun some_chosen => absurd none_chosen some_chosen⟩
      intro entry member gone
      rcases swept_removed member gone with stale | ⟨released, lapsed⟩
      · exact .inl stale
      · exact .inr ⟨released, .inl lapsed⟩
    · cases taken
  · next full =>
    split at taken
    · next oldest =>
      cases taken
      refine ⟨⟨fun entry => decide (entry.1 ∉ chosen) && keeps entry, ?_⟩, by simp, ?_, ?_⟩
      · rw [same, List.filter_filter]
      · intro entry member gone
        by_cases stays : entry ∈ map.swept now
        · have picked : entry.1 ∈ chosen := by
            by_contra spared
            exact gone (List.mem_filter.mpr ⟨stays, decide_eq_true spared⟩)
          have released := oldest.released (same ▸ keyed.filter keeps) stays picked
          exact .inr ⟨released, .inr picked⟩
        · rcases swept_removed member stays with stale | ⟨released, lapsed⟩
          · exact .inl stale
          · exact .inr ⟨released, .inl lapsed⟩
      · intro _
        exact (Nat.le_of_not_lt full).trans length_swept_le
    · cases taken

/-- The cap refuses an attempt only where nothing can be evicted. -/
theorem ensureRoom_iff (bounded : map.length ≤ maxThrottleEntries)
    (taken : map.ensureRoomForNewEntry now chosen = some (room, left)) :
    room = true ↔ (map.swept now).length < maxThrottleEntries ∨ (map.swept now).evictable ≠ [] := by
  have few : (map.swept now).length ≤ maxThrottleEntries := length_swept_le.trans bounded
  unfold ensureRoomForNewEntry at taken
  simp only [] at taken
  split at taken
  · next below =>
    split at taken
    · cases taken
      exact ⟨fun _ => .inl below, fun _ => rfl⟩
    · cases taken
  next full =>
  split at taken
  · next oldest =>
    cases taken
    obtain ⟨-, count, keys, -⟩ := oldest
    rw [decide_eq_true_iff]
    constructor
    · intro room
      refine .inr fun empty => full ?_
      have unchosen : chosen = [] := by
        rw [← List.length_eq_zero_iff, count, evictions, empty]
        exact Nat.min_zero _
      simpa [unchosen] using room
    · rintro (below | some_evictable)
      · exact absurd below full
      · have positive : 0 < chosen.length := by
          have evictable := List.length_pos_iff.mpr some_evictable
          have cap : maxThrottleEntries - maxThrottleEntries / evictionDenominator < maxThrottleEntries := by decide
          rw [count, evictions]
          omega
        obtain ⟨key, picked⟩ := List.exists_mem_of_length_pos positive
        obtain ⟨entry, member, same⟩ := List.mem_map.mp (keys key picked)
        refine lt_of_lt_of_le (List.length_filter_lt_length_iff_exists.mpr ⟨entry, List.mem_of_mem_filter member, ?_⟩) few
        simpa [same] using picked
  · cases taken

theorem Cleared.lookup (cleared : map.Cleared now chosen room left) (keyed : Assoc.Keyed map) :
    left.lookup key = map.lookup key ∨ left.lookup key = none ∧ ∃ entry, map.lookup key = some entry ∧
      ((0 < entry.inFlight ∧ staleInFlightAge ≤ now - entry.lastSeen) ∨
        (entry.inFlight = 0 ∧ (entry.lockedUntil + sweepGrace ≤ now ∨ key ∈ chosen))) := by
  obtain ⟨keeps, same⟩ := cleared.filtered
  have kept : left.lookup key = (map.lookup key).filter fun entry => keeps (key, entry) := by
    rw [same, keyed.lookup_filter]
  cases found : map.lookup key with
  | none =>
    left
    rw [kept, found]
    rfl
  | some entry =>
    rw [found, Option.filter_some] at kept
    cases passes : keeps (key, entry) with
    | true =>
      left
      rw [kept, if_pos passes]
    | false =>
      right
      refine ⟨by rw [kept, if_neg (by simp [passes])], entry, rfl, ?_⟩
      refine cleared.removed (key, entry) (Assoc.mem_of_lookup found) fun stays => ?_
      rw [same, List.mem_filter, passes] at stays
      cases stays.2

theorem Cleared.absent (cleared : map.Cleared now chosen room left) (keyed : Assoc.Keyed map)
    (absent : map.lookup key = none) : left.lookup key = none := by
  rcases cleared.lookup keyed with same | ⟨gone, _⟩
  · exact same.trans absent
  · exact gone

theorem Cleared.stayed (cleared : map.Cleared now chosen room left) (keyed : Assoc.Keyed map)
    (found : left.lookup key = some entry) : map.lookup key = some entry := by
  rcases cleared.lookup keyed with same | ⟨gone, _⟩
  · exact same.symm.trans found
  · cases gone.symm.trans found

theorem Cleared.keyed (cleared : map.Cleared now chosen room left) (keyed : Assoc.Keyed map) : Assoc.Keyed left := by
  obtain ⟨keeps, rfl⟩ := cleared.filtered
  exact keyed.filter keeps

theorem Cleared.length_le (cleared : map.Cleared now chosen room left) : left.length ≤ map.length := by
  obtain ⟨keeps, rfl⟩ := cleared.filtered
  exact List.length_filter_le ..

/-- Where no slot is stale, what makes room leaves the slots alone. -/
theorem Cleared.slots (cleared : map.Cleared now chosen room left) (keyed : Assoc.Keyed map)
    (young : ∀ entry, map.lookup key = some entry → 0 < entry.inFlight → now - entry.lastSeen < staleInFlightAge) :
    left.slots key = map.slots key := by
  rcases cleared.lookup keyed with same | ⟨gone, entry, found, ⟨held, stale⟩ | ⟨released, _⟩⟩
  · exact slots_congr same
  · exact absurd (young entry found held) (Nat.not_lt.mpr stale)
  · rw [slots_none gone, slots_some found, released]

/-- What consuming a guard does: the entry of its address loses a slot, and the others stay. -/
structure Released (before after : ThrottleMap) (key : IpAddr) (now : Nat) : Prop where
  keyed : Assoc.Keyed after
  length_le : after.length ≤ before.length
  others : ∀ other, other ≠ key → after.lookup other = before.lookup other
  slots : after.slots key = before.slots key - 1
  seen : ∀ entry, after.lookup key = some entry →
    ∃ old, before.lookup key = some old ∧ (entry.lastSeen = now ∨ entry.lastSeen = old.lastSeen)

theorem lookup_modify {change : AttemptState → AttemptState} :
    (map.modify key change).lookup other = if other = key then (map.lookup key).map change else map.lookup other := by
  unfold modify
  split
  · next absent =>
    split
    · next same => rw [same, absent, Option.map_none]
    · rfl
  · next entry found => rw [Assoc.lookup_put, found, Option.map_some]

theorem modify_released {change : AttemptState → AttemptState} (keyed : Assoc.Keyed map)
    (slot : ∀ entry, (change entry).inFlight = entry.inFlight - 1)
    (seen : ∀ entry, (change entry).lastSeen = now ∨ (change entry).lastSeen = entry.lastSeen) :
    Released map (map.modify key change) key now where
  keyed := by
    unfold modify
    split
    · exact keyed
    · exact keyed.put ..
  length_le := by
    unfold modify
    split
    · exact Nat.le_refl _
    · next found => exact Nat.le_of_eq (keyed.length_put_old found)
  others other differs := by rw [lookup_modify, if_neg differs]
  slots := by
    unfold ThrottleMap.slots
    rw [lookup_modify, if_pos rfl]
    cases map.lookup key with
    | none => rfl
    | some entry => exact slot entry
  seen entry found := by
    rw [lookup_modify, if_pos rfl] at found
    obtain ⟨old, present, rfl⟩ := Option.map_eq_some_iff.mp found
    exact ⟨old, present, seen old⟩

/-- The failure of an address that holds a slot counts one more and locks. -/
theorem applyFailure_locks (now cap : Nat) (busy : 0 < map.slots key) :
    ∃ before ∈ map.lookup key, ∃ entry ∈ (map.applyFailure key now cap).lookup key,
      entry.failures = saturatingSucc before.failures ∧ now + backoffFor entry.failures cap ≤ entry.lockedUntil := by
  cases found : map.lookup key with
  | none =>
    rw [slots_none found] at busy
    cases busy
  | some before =>
    rw [slots_some found] at busy
    refine ⟨before, rfl, before.failed now cap, ?_, rfl, AttemptState.failed_locks busy⟩
    rw [applyFailure, lookup_modify, if_pos rfl, found]
    rfl

theorem applyFailure_released (keyed : Assoc.Keyed map) : Released map (map.applyFailure key now cap) key now :=
  modify_released keyed (fun _ => rfl) fun _ => .inl rfl

theorem applyRelease_released (keyed : Assoc.Keyed map) : Released map (map.applyRelease key) key now :=
  modify_released keyed (fun _ => rfl) fun _ => .inr rfl

theorem applySuccess_released (keyed : Assoc.Keyed map) : Released map (map.applySuccess key now) key now := by
  unfold applySuccess
  split
  · next absent => exact ⟨keyed, Nat.le_refl _, fun _ _ => rfl, by simp [slots_none absent], by simp [absent]⟩
  · next entry found =>
    split
    · next last =>
      refine ⟨keyed.erase key, Assoc.length_erase_le, ?_, ?_, ?_⟩
      · intro other differs
        rw [Assoc.lookup_erase, if_neg differs]
      · rw [slots_some found, last, slots_none]
        rw [Assoc.lookup_erase, if_pos rfl]
      · intro left present
        rw [Assoc.lookup_erase, if_pos rfl] at present
        cases present
    · refine ⟨keyed.put .., Nat.le_of_eq (keyed.length_put_old found), ?_, ?_, ?_⟩
      · intro other differs
        rw [Assoc.lookup_put, if_neg differs]
      · rw [slots_put, if_pos rfl, slots_some found]
      · intro left present
        rw [Assoc.lookup_put, if_pos rfl] at present
        cases present
        exact ⟨entry, found, .inl rfl⟩

end ThrottleMap

/-- What an attempt does to the map, by the entry of its address. -/
inductive Attempt (throttle : LoginThrottle) (map : ThrottleMap) (ip : IpAddr) (now : Nat) (chosen : List IpAddr) :
    Except ThrottleDecision IpAddr → ThrottleMap → Prop where
  | busy {entry decision} (found : map.lookup (normalizeIp ip) = some entry) (unchosen : chosen = [])
      (barred : now < entry.lockedUntil ∨ throttle.maxInFlight ≤ entry.inFlight) :
      Attempt throttle map ip now chosen (.error decision) map
  | again {entry} (found : map.lookup (normalizeIp ip) = some entry) (unchosen : chosen = [])
      (unlocked : entry.lockedUntil ≤ now) (free : entry.inFlight < throttle.maxInFlight) :
      Attempt throttle map ip now chosen (.ok (normalizeIp ip))
        (Assoc.put map (normalizeIp ip) { entry with inFlight := saturatingSucc entry.inFlight, lastSeen := now })
  | crowded {left decision} (absent : map.lookup (normalizeIp ip) = none)
      (cleared : map.ensureRoomForNewEntry now chosen = some (false, left)) :
      Attempt throttle map ip now chosen (.error decision) left
  | first {left} (absent : map.lookup (normalizeIp ip) = none)
      (cleared : map.ensureRoomForNewEntry now chosen = some (true, left)) :
      Attempt throttle map ip now chosen (.ok (normalizeIp ip)) (Assoc.put left (normalizeIp ip)
        { failures := 0, lockedUntil := now, inFlight := saturatingSucc 0, lastSeen := now })

namespace LoginThrottle
variable {throttle : LoginThrottle} {map after : ThrottleMap} {ip : IpAddr} {now : Nat} {chosen : List IpAddr}
  {outcome : Except ThrottleDecision IpAddr}

theorem tryBegin_attempt (taken : throttle.tryBeginAttempt map ip now chosen = some (outcome, after)) :
    Attempt throttle map ip now chosen outcome after := by
  unfold tryBeginAttempt at taken
  simp only [] at taken
  split at taken
  · next entry found =>
    split at taken
    · cases taken
    next unchosen =>
    have unchosen := not_not.mp unchosen
    split at taken
    · next locked =>
      cases taken
      exact .busy found unchosen (.inl locked)
    next unlocked =>
    split at taken
    · next full =>
      cases taken
      exact .busy found unchosen (.inr full)
    · next free =>
      cases taken
      exact .again found unchosen (Nat.le_of_not_lt unlocked) (Nat.lt_of_not_le free)
  · next absent =>
    split at taken
    · cases taken
    · next cleared =>
      cases taken
      exact .crowded absent cleared
    · next cleared =>
      cases taken
      exact .first absent cleared

theorem succ_slot (free : count < throttle.maxInFlight) : saturatingSucc count = count + 1 := by
  have bounded := throttle.bounded
  exact saturatingSucc_eq (by unfold maxU32; omega)

end LoginThrottle

namespace Attempt
variable {throttle : LoginThrottle} {map after : ThrottleMap} {ip key : IpAddr} {now : Nat} {chosen : List IpAddr}
  {outcome : Except ThrottleDecision IpAddr}

theorem keyed (attempt : Attempt throttle map ip now chosen outcome after) (keyed : Assoc.Keyed map) :
    Assoc.Keyed after := by
  cases attempt with
  | busy => exact keyed
  | again => exact keyed.put ..
  | crowded _ cleared => exact (ThrottleMap.ensureRoom_cleared keyed cleared).keyed keyed
  | first _ cleared => exact ((ThrottleMap.ensureRoom_cleared keyed cleared).keyed keyed).put ..

theorem bounded (attempt : Attempt throttle map ip now chosen outcome after) (keyed : Assoc.Keyed map)
    (bounded : map.length ≤ maxThrottleEntries) : after.length ≤ maxThrottleEntries := by
  cases attempt with
  | busy => exact bounded
  | again found => exact (keyed.length_put_old found).trans_le bounded
  | crowded _ cleared => exact (ThrottleMap.ensureRoom_cleared keyed cleared).length_le.trans bounded
  | first absent cleared =>
    have cleared := ThrottleMap.ensureRoom_cleared keyed cleared
    rw [Assoc.length_put_new (cleared.absent keyed absent)]
    exact cleared.room_iff.mp rfl

/-- An entry stays as it is, unless it is that of the granted attempt. -/
theorem entry (attempt : Attempt throttle map ip now chosen outcome after) (keyed : Assoc.Keyed map)
    {entry : AttemptState} (found : after.lookup key = some entry) :
    outcome ≠ .ok key ∧ map.lookup key = some entry ∨ outcome = .ok key ∧ entry.lastSeen = now := by
  cases attempt with
  | busy => exact .inl ⟨nofun, found⟩
  | again =>
    rw [Assoc.lookup_put] at found
    split at found
    · next same =>
      cases found
      exact .inr ⟨by rw [same], rfl⟩
    · next differs => exact .inl ⟨fun same => differs (Except.ok.inj same).symm, found⟩
  | crowded _ cleared => exact .inl ⟨nofun, (ThrottleMap.ensureRoom_cleared keyed cleared).stayed keyed found⟩
  | first _ cleared =>
    rw [Assoc.lookup_put] at found
    split at found
    · next same =>
      cases found
      exact .inr ⟨by rw [same], rfl⟩
    · next differs =>
      have stayed := (ThrottleMap.ensureRoom_cleared keyed cleared).stayed keyed found
      exact .inl ⟨fun same => differs (Except.ok.inj same).symm, stayed⟩

section young
variable (young : ∀ key entry, map.lookup key = some entry → 0 < entry.inFlight → now - entry.lastSeen < staleInFlightAge)
include young

theorem slots_error {decision : ThrottleDecision} (attempt : Attempt throttle map ip now chosen (.error decision) after)
    (keyed : Assoc.Keyed map) (key : IpAddr) : after.slots key = map.slots key := by
  cases attempt with
  | busy => rfl
  | crowded _ cleared => exact (ThrottleMap.ensureRoom_cleared keyed cleared).slots keyed (young key)

theorem slots_ok {granted : IpAddr} (attempt : Attempt throttle map ip now chosen (.ok granted) after)
    (keyed : Assoc.Keyed map) (key : IpAddr) : map.slots granted < throttle.maxInFlight ∧
      after.slots key = map.slots key + if granted = key then 1 else 0 := by
  cases attempt with
  | again found _ _ free =>
    refine ⟨(ThrottleMap.slots_some found).trans_lt free, ?_⟩
    rw [ThrottleMap.slots_put, LoginThrottle.succ_slot free]
    split
    · next same =>
      subst same
      rw [ThrottleMap.slots_some found, if_pos rfl]
    · next differs => rw [if_neg fun same => differs same.symm, Nat.add_zero]
  | first absent cleared =>
    refine ⟨(ThrottleMap.slots_none absent).trans_lt throttle.positive, ?_⟩
    rw [ThrottleMap.slots_put, LoginThrottle.succ_slot throttle.positive]
    split
    · next same =>
      subst same
      rw [ThrottleMap.slots_none absent, if_pos rfl]
    · next differs =>
      rw [if_neg fun same => differs same.symm, Nat.add_zero]
      exact (ThrottleMap.ensureRoom_cleared keyed cleared).slots keyed (young key)

end young
end Attempt

namespace ThrottleRun
variable {throttle : LoginThrottle} {run next : ThrottleRun} {event : ThrottleEvent} {key : IpAddr} {held : AttemptGuard}
  {now : Nat}

/-- One entry for each address, and no more than the cap. -/
structure Bounded (run : ThrottleRun) : Prop where
  keyed : Assoc.Keyed run.map
  bounded : run.map.length ≤ maxThrottleEntries

/-- The slots of an address are its guards, and an entry was seen since its guards were granted. -/
structure Valid (throttle : LoginThrottle) (run : ThrottleRun) : Prop extends Bounded run where
  slots : ∀ key, run.map.slots key = run.guards.countP (·.key = key)
  limited : ∀ key, run.map.slots key ≤ throttle.maxInFlight
  recent : ∀ guard ∈ run.guards, ∀ entry, run.map.lookup guard.key = some entry → guard.acquired ≤ entry.lastSeen
  past : ∀ guard ∈ run.guards, guard.acquired ≤ run.clock
  distinct : (run.guards.map AttemptGuard.id).Nodup
  fresh : ∀ guard ∈ run.guards, guard.id < run.nextId

theorem valid_start (throttle : LoginThrottle) : Valid throttle {} where
  keyed := Assoc.keyed_nil
  bounded := Nat.zero_le _
  slots _ := rfl
  limited _ := Nat.zero_le _
  recent _ member := nomatch member
  past _ member := nomatch member
  distinct := List.nodup_nil
  fresh _ member := nomatch member

/-- A slot belongs to a guard, so it is not stale while the run is timely. -/
theorem Valid.young (valid : Valid throttle run) (timely : ∀ guard ∈ run.guards, now < guard.acquired + staleInFlightAge)
    (key : IpAddr) (entry : AttemptState) (found : run.map.lookup key = some entry) (busy : 0 < entry.inFlight) :
    now - entry.lastSeen < staleInFlightAge := by
  have counted := valid.slots key
  rw [ThrottleMap.slots_some found] at counted
  obtain ⟨guard, member, same⟩ := List.countP_pos_iff.mp (counted ▸ busy)
  have same := of_decide_eq_true same
  subst same
  have recent := valid.recent guard member entry found
  have early := timely guard member
  have positive := staleInFlightAge_pos
  omega

/-- The guards without one of them. -/
theorem Valid.countP_others (valid : Valid throttle run) (member : held ∈ run.guards) :
    (run.guards.filter (·.id ≠ held.id)).countP (·.key = key) =
      run.guards.countP (·.key = key) - if held.key = key then 1 else 0 := by
  have erased : run.guards.filter (·.id ≠ held.id) = run.guards.erase held := by
    rw [(List.Nodup.of_map _ valid.distinct).erase_eq_filter]
    refine List.filter_congr fun guard present => ?_
    by_cases same : guard = held
    · simp [same]
    · have differs : guard.id ≠ held.id := fun equal => same (List.inj_on_of_nodup_map valid.distinct present member equal)
      simp [same, differs]
  rw [erased, List.countP_erase]
  simp [member]

theorem begin_cases {ip : IpAddr} {chosen : List IpAddr} (taken : run.begin throttle ip now chosen = some next) :
    ∃ outcome map, Attempt throttle run.map ip now chosen outcome map ∧ next.map = map ∧ next.clock = now ∧
      ((∃ granted, outcome = .ok granted ∧ next.nextId = run.nextId + 1 ∧
          next.guards = { id := run.nextId, key := granted, acquired := now } :: run.guards) ∨
        ∃ decision, outcome = .error decision ∧ next.nextId = run.nextId ∧ next.guards = run.guards) := by
  unfold begin at taken
  split at taken
  · cases taken
  · next granted map tried =>
    cases taken
    exact ⟨_, _, LoginThrottle.tryBegin_attempt tried, rfl, rfl, .inl ⟨granted, rfl, rfl, rfl⟩⟩
  · next decision map tried =>
    cases taken
    exact ⟨_, _, LoginThrottle.tryBegin_attempt tried, rfl, rfl, .inr ⟨decision, rfl, rfl, rfl⟩⟩

theorem Bounded.begin {ip : IpAddr} {chosen : List IpAddr} (kept : run.Bounded)
    (taken : run.begin throttle ip now chosen = some next) : next.Bounded := by
  obtain ⟨outcome, map, attempt, rfl, _⟩ := begin_cases taken
  exact ⟨attempt.keyed kept.keyed, attempt.bounded kept.keyed kept.bounded⟩

theorem Valid.begin {ip : IpAddr} {chosen : List IpAddr} (valid : Valid throttle run) (later : run.clock ≤ now)
    (timely : ∀ guard ∈ run.guards, now < guard.acquired + staleInFlightAge)
    (taken : run.begin throttle ip now chosen = some next) : Valid throttle next := by
  have young := valid.young timely
  have kept := valid.toBounded.begin taken
  obtain ⟨outcome, map, attempt, rfl, clock, ⟨granted, rfl, nextId, guards⟩ | ⟨decision, rfl, nextId, guards⟩⟩ :=
    begin_cases taken
  · have added := fun key => attempt.slots_ok young valid.keyed key
    refine ⟨kept, ?_, ?_, ?_, ?_, ?_, ?_⟩
    · intro key
      rw [(added key).2, valid.slots key, guards, List.countP_cons]
      simp
    · intro key
      rw [(added key).2]
      split
      · next same => exact same ▸ (added key).1
      · exact valid.limited key
    · intro guard member entry found
      rw [guards] at member
      rcases attempt.entry valid.keyed found with ⟨other, stays⟩ | ⟨_, seen⟩
      · rcases List.mem_cons.mp member with rfl | old
        · exact absurd rfl other
        · exact valid.recent guard old entry stays
      · rw [seen]
        rcases List.mem_cons.mp member with rfl | old
        · exact Nat.le_refl _
        · exact (valid.past guard old).trans later
    · intro guard member
      rw [guards] at member
      rw [clock]
      rcases List.mem_cons.mp member with rfl | old
      · exact Nat.le_refl _
      · exact (valid.past guard old).trans later
    · rw [guards, List.map_cons, List.nodup_cons]
      refine ⟨fun used => ?_, valid.distinct⟩
      obtain ⟨guard, member, same⟩ := List.mem_map.mp used
      exact absurd same (valid.fresh guard member).ne
    · intro guard member
      rw [guards] at member
      rw [nextId]
      rcases List.mem_cons.mp member with rfl | old
      · exact Nat.lt_succ_self _
      · exact (valid.fresh guard old).trans (Nat.lt_succ_self _)
  · have same := fun key => attempt.slots_error young valid.keyed key
    refine ⟨kept, ?_, ?_, ?_, ?_, ?_, ?_⟩
    · intro key
      rw [same, guards, valid.slots]
    · intro key
      exact (same key).trans_le (valid.limited key)
    · intro guard member entry found
      rw [guards] at member
      rcases attempt.entry valid.keyed found with ⟨_, stays⟩ | ⟨granted, _⟩
      · exact valid.recent guard member entry stays
      · cases granted
    · intro guard member
      rw [clock]
      exact (valid.past guard (guards ▸ member)).trans later
    · exact guards ▸ valid.distinct
    · rw [guards, nextId]
      exact valid.fresh

theorem held_some {guard : Nat} (found : run.held guard = some held) : held ∈ run.guards ∧ held.id = guard :=
  ⟨List.mem_of_find?_eq_some found, by simpa using List.find?_some found⟩

/-- What a consumption leaves: its guard waits, and nothing else is different. -/
structure Waits (run next : ThrottleRun) (now : Nat) : Prop where
  map : next.map = run.map
  clock : next.clock = now
  nextId : next.nextId = run.nextId
  refused : next.refused = run.refused
  guards : ∃ wait : AttemptGuard → AttemptGuard, next.guards = run.guards.map wait ∧
    ∀ guard, (wait guard).id = guard.id ∧ (wait guard).key = guard.key ∧ (wait guard).acquired = guard.acquired

theorem consume_waits {guard : Nat} {record : AttemptRecord} (taken : run.consume guard now record = some next) :
    Waits run next now := by
  unfold consume at taken
  split at taken
  · cases taken
  · split at taken
    · cases taken
    · cases taken
      refine ⟨rfl, rfl, rfl, rfl, _, rfl, fun other => ?_⟩
      split <;> exact ⟨rfl, rfl, rfl⟩

theorem Waits.former (waits : Waits run next now) {guard : AttemptGuard} (member : guard ∈ next.guards) :
    ∃ former ∈ run.guards, former.id = guard.id ∧ former.key = guard.key ∧ former.acquired = guard.acquired := by
  obtain ⟨wait, guards, same⟩ := waits.guards
  obtain ⟨former, present, rfl⟩ := List.mem_map.mp (guards ▸ member)
  obtain ⟨id, key, acquired⟩ := same former
  exact ⟨former, present, id.symm, key.symm, acquired.symm⟩

theorem Valid.waits (valid : Valid throttle run) (later : run.clock ≤ now) (waits : Waits run next now) :
    Valid throttle next := by
  obtain ⟨wait, guards, same⟩ := waits.guards
  refine ⟨⟨waits.map ▸ valid.keyed, waits.map ▸ valid.bounded⟩, ?_, ?_, ?_, ?_, ?_, ?_⟩
  · intro key
    have keys : (fun guard => decide (guard.key = key)) ∘ wait = fun guard => decide (guard.key = key) := by
      funext guard
      simp [(same guard).2.1]
    rw [waits.map, valid.slots, guards, List.countP_map, keys]
  · intro key
    exact waits.map ▸ valid.limited key
  · intro guard member entry found
    obtain ⟨former, present, -, key, acquired⟩ := waits.former member
    rw [← acquired]
    exact valid.recent former present entry (key ▸ waits.map ▸ found)
  · intro guard member
    obtain ⟨former, present, -, -, acquired⟩ := waits.former member
    rw [← acquired, waits.clock]
    exact (valid.past former present).trans later
  · have ids : AttemptGuard.id ∘ wait = AttemptGuard.id := funext fun guard => (same guard).1
    rw [guards, List.map_map, ids]
    exact valid.distinct
  · intro guard member
    obtain ⟨former, present, id, -, -⟩ := waits.former member
    rw [← id, waits.nextId]
    exact valid.fresh former present

/-- What the end of a guard leaves: the guard is gone, and the map changed by it. -/
structure Ends (run next : ThrottleRun) (now : Nat) (change : AttemptGuard → Option ThrottleMap)
    (held : AttemptGuard) : Prop where
  member : held ∈ run.guards
  map : change held = some next.map
  clock : next.clock = now
  guards : next.guards = run.guards.filter (·.id ≠ held.id)
  nextId : next.nextId = run.nextId
  refused : next.refused = run.refused

theorem finish_ends {guard : Nat} {change : AttemptGuard → Option ThrottleMap}
    (taken : run.finish guard now change = some next) : ∃ held, run.held guard = some held ∧ Ends run next now change held := by
  unfold finish at taken
  split at taken
  · cases taken
  · next held found =>
    obtain ⟨map, changed, rfl⟩ := Option.map_eq_some_iff.mp taken
    obtain ⟨member, rfl⟩ := held_some found
    exact ⟨held, found, member, changed, rfl, rfl, rfl, rfl⟩

/-- What one operation does. -/
inductive Course (throttle : LoginThrottle) (run next : ThrottleRun) : ThrottleEvent → Prop where
  | begun {ip : IpAddr} {now : Nat} {chosen : List IpAddr} (taken : run.begin throttle ip now chosen = some next) :
      Course throttle run next (.tryBegin ip now chosen)
  | failure {guard now : Nat} (waits : Waits run next now) : Course throttle run next (.recordFailure guard now)
  | success {guard now : Nat} (waits : Waits run next now) : Course throttle run next (.recordSuccess guard now)
  | release {guard now : Nat} (waits : Waits run next now) : Course throttle run next (.releaseSlot guard now)
  | locked {guard now : Nat} {record : AttemptRecord} (held : AttemptGuard) (found : run.held guard = some held)
      (consumed : held.consumed = some record)
      (ends : Ends run next now (fun _ => some (record.apply run.map held.key now throttle.backoffCap)) held) :
      Course throttle run next (.takeLock guard now)
  | dropped {guard now : Nat} {contended : Bool} (held : AttemptGuard) (found : run.held guard = some held)
      (ends : Ends run next now (fun held => some (run.dropped held now throttle.backoffCap contended)) held) :
      Course throttle run next (.dropGuard guard now contended)

theorem step_course (taken : run.step throttle event = some next) : run.clock ≤ event.time ∧ Course throttle run next event := by
  unfold step at taken
  split at taken
  · cases taken
  next later =>
  refine ⟨Nat.le_of_not_lt later, ?_⟩
  cases event with
  | tryBegin => exact .begun taken
  | recordFailure => exact .failure (consume_waits taken)
  | recordSuccess => exact .success (consume_waits taken)
  | releaseSlot => exact .release (consume_waits taken)
  | takeLock guard now =>
    obtain ⟨held, found, ends⟩ := finish_ends taken
    obtain ⟨record, consumed, applied⟩ := Option.map_eq_some_iff.mp ends.map
    exact .locked held found consumed { ends with map := congrArg some applied }
  | dropGuard guard now contended =>
    obtain ⟨held, found, ends⟩ := finish_ends taken
    exact .dropped held found ends

theorem Course.clock (course : Course throttle run next event) : next.clock = event.time := by
  cases course with
  | begun begins =>
    obtain ⟨_, _, _, _, clock, _⟩ := begin_cases begins
    exact clock
  | failure waits | success waits | release waits => exact waits.clock
  | locked _ _ _ ends | dropped _ _ ends => exact ends.clock

/-- A guard ends with its slot. -/
theorem Valid.ends {change : AttemptGuard → Option ThrottleMap} {seen : Nat} (valid : Valid throttle run)
    (later : run.clock ≤ now) (ends : Ends run next now change held)
    (released : ThrottleMap.Released run.map next.map held.key seen)
    (recent : ∀ guard ∈ run.guards, guard.key = held.key → guard.acquired ≤ seen) : Valid throttle next := by
  have still : ∀ guard ∈ next.guards, guard ∈ run.guards := fun guard present =>
    List.mem_of_mem_filter (ends.guards ▸ present)
  have slot : ∀ key, next.map.slots key = run.map.slots key - if held.key = key then 1 else 0 := by
    intro key
    split
    · next same => exact same ▸ released.slots
    · next differs => exact ThrottleMap.slots_congr (released.others key fun same => differs same.symm)
  refine ⟨⟨released.keyed, released.length_le.trans valid.bounded⟩, ?_, ?_, ?_, ?_, ?_, ?_⟩
  · intro key
    rw [slot, ends.guards, valid.countP_others ends.member, valid.slots]
  · intro key
    rw [slot]
    exact (Nat.sub_le _ _).trans (valid.limited key)
  · intro guard present entry found
    have old := still guard present
    by_cases same : guard.key = held.key
    · rw [same] at found
      obtain ⟨before, stood, fresh | unchanged⟩ := released.seen entry found
      · rw [fresh]
        exact recent guard old same
      · rw [unchanged]
        exact valid.recent guard old before (same ▸ stood)
    · exact valid.recent guard old entry ((released.others guard.key same).symm.trans found)
  · intro guard present
    rw [ends.clock]
    exact (valid.past guard (still guard present)).trans later
  · rw [ends.guards]
    exact valid.distinct.sublist (List.filter_sublist.map _)
  · intro guard present
    rw [ends.nextId]
    exact valid.fresh guard (still guard present)

/-- What is done under the lock releases one slot, and the time that it leaves is its own, except
for a success. -/
theorem apply_released {map : ThrottleMap} {cap : Nat} (keyed : Assoc.Keyed map) (record : AttemptRecord) :
    ThrottleMap.Released map (record.apply map key now cap) key (record.readTime.getD now) := by
  cases record with
  | failure => exact ThrottleMap.applyFailure_released keyed
  | success read => exact ThrottleMap.applySuccess_released keyed
  | release => exact ThrottleMap.applyRelease_released keyed

theorem dropped_eq {cap : Nat} {contended : Bool} (unconsumed : held.consumed = none) (free : contended = false) :
    run.dropped held now cap contended = run.map.applyFailure held.key now cap := by
  rw [dropped, if_neg]
  rintro (consumed | taken)
  · rw [unconsumed] at consumed
    cases consumed
  · rw [free] at taken
    cases taken

/-- In a timely step only the guard that ends may be as old as a stale slot. -/
theorem Timely.young (timely : run.Timely event) (ends : event.ended = none) :
    ∀ guard ∈ run.guards, event.time < guard.acquired + staleInFlightAge := by
  intro guard member
  rcases timely.2 guard member with early | ⟨ended, _⟩
  · exact early
  · cases ends.symm.trans ended

theorem Valid.step (valid : Valid throttle run) (undisturbed : run.Undisturbed event)
    (taken : run.step throttle event = some next) : Valid throttle next := by
  obtain ⟨later, course⟩ := step_course taken
  obtain ⟨timely, awaited⟩ := undisturbed
  have past {guard : AttemptGuard} (member : guard ∈ run.guards) : guard.acquired ≤ event.time :=
    (valid.past guard member).trans later
  cases course with
  | begun begins => exact valid.begin later (timely.young rfl) begins
  | failure waits | success waits | release waits => exact valid.waits later waits
  | @locked guard now record held found consumed ends =>
    refine valid.ends later ends (Option.some.inj ends.map ▸ apply_released valid.keyed record) fun other member same => ?_
    cases record with
    | failure | release => exact past member
    | success read => exact awaited held found read (by rw [consumed]; rfl) other member same
  | @dropped guard now contended held found ends =>
    have map : run.map.applyFailure held.key now throttle.backoffCap = next.map :=
      (dropped_eq (awaited held found) timely.1).symm.trans (Option.some.inj ends.map)
    exact valid.ends later ends (map ▸ ThrottleMap.applyFailure_released valid.keyed) fun _ member _ => past member

/-- The address is locked at least up to the deadline. -/
def LockedTo (key : IpAddr) (deadline : Nat) (run : ThrottleRun) : Prop :=
  ∃ entry ∈ run.map.lookup key, deadline ≤ entry.lockedUntil

theorem LockedTo.of_lookup {deadline : Nat} (locked : LockedTo key deadline run)
    (same : next.map.lookup key = run.map.lookup key) : LockedTo key deadline next := by
  obtain ⟨entry, found, late⟩ := locked
  exact ⟨entry, same.trans found, late⟩

theorem LockedTo.modify {deadline : Nat} {other : IpAddr} {change : AttemptState → AttemptState}
    (locked : LockedTo key deadline run) (extends_ : ∀ entry, entry.lockedUntil ≤ (change entry).lockedUntil)
    (map : next.map = run.map.modify other change) : LockedTo key deadline next := by
  obtain ⟨entry, found, late⟩ := locked
  by_cases same : key = other
  · refine ⟨change entry, ?_, late.trans (extends_ entry)⟩
    rw [map, ThrottleMap.lookup_modify, if_pos same, ← same, found, Option.map_some]
    rfl
  · refine ⟨entry, ?_, late⟩
    rw [map, ThrottleMap.lookup_modify, if_neg same]
    exact found

theorem LockedTo.cleared {deadline : Nat} {chosen : List IpAddr} {room : Bool} {left : ThrottleMap}
    (locked : LockedTo key deadline run) (valid : Valid throttle run) (early : now < deadline) (spared : key ∉ chosen)
    (timely : ∀ guard ∈ run.guards, now < guard.acquired + staleInFlightAge)
    (cleared : run.map.Cleared now chosen room left) : ∃ entry ∈ left.lookup key, deadline ≤ entry.lockedUntil := by
  obtain ⟨entry, found, late⟩ := locked
  rcases cleared.lookup valid.keyed with same | ⟨_, gone, was, ⟨busy, stale⟩ | ⟨_, lapsed | evicted⟩⟩
  · exact ⟨entry, same.trans found, late⟩
  · exact absurd (valid.young timely key gone was busy) (Nat.not_lt.mpr stale)
  · cases was.symm.trans found
    omega
  · exact absurd evicted spared

theorem LockedTo.attempt {deadline : Nat} {ip : IpAddr} {chosen : List IpAddr}
    {outcome : Except ThrottleDecision IpAddr} (locked : LockedTo key deadline run) (valid : Valid throttle run)
    (early : now < deadline) (spared : key ∉ chosen)
    (timely : ∀ guard ∈ run.guards, now < guard.acquired + staleInFlightAge)
    (attempt : Attempt throttle run.map ip now chosen outcome next.map) : LockedTo key deadline next := by
  generalize after : next.map = map at attempt
  unfold LockedTo
  rw [after]
  cases attempt with
  | busy => exact locked
  | again found =>
    obtain ⟨entry, present, late⟩ := locked
    by_cases same : key = normalizeIp ip
    · rw [Assoc.lookup_put, if_pos same]
      subst same
      cases found.symm.trans present
      exact ⟨_, rfl, late⟩
    · rw [Assoc.lookup_put, if_neg same]
      exact ⟨entry, present, late⟩
  | crowded _ cleared => exact locked.cleared valid early spared timely (ThrottleMap.ensureRoom_cleared valid.keyed cleared)
  | first absent cleared =>
    obtain ⟨entry, present, late⟩ := locked
    by_cases same : key = normalizeIp ip
    · subst same
      cases absent.symm.trans present
    · rw [Assoc.lookup_put, if_neg same]
      exact LockedTo.cleared ⟨entry, present, late⟩ valid early spared timely
        (ThrottleMap.ensureRoom_cleared valid.keyed cleared)

theorem LockedTo.step {deadline : Nat} (locked : LockedTo key deadline run) (valid : Valid throttle run)
    (spares : run.Spares Undisturbed key event) (early : event.time < deadline)
    (taken : run.step throttle event = some next) : LockedTo key deadline next := by
  obtain ⟨⟨timely, awaited⟩, unsuccessful, uneviction⟩ := spares
  cases (step_course taken).2 with
  | begun begins =>
    obtain ⟨outcome, map, attempt, rfl, -⟩ := begin_cases begins
    exact locked.attempt valid early uneviction (timely.young rfl) attempt
  | failure waits | success waits | release waits => exact locked.of_lookup (by rw [waits.map])
  | @locked guard now record held found consumed ends =>
    obtain ⟨member, same⟩ := held_some found
    have map := (Option.some.inj ends.map).symm
    cases record with
    | failure => exact locked.modify (fun _ => AttemptState.failed_extends) map
    | success read =>
      have other : key ≠ held.key := fun equal => unsuccessful ⟨held, member, same, equal.symm, by rw [consumed]; rfl⟩
      refine locked.of_lookup ?_
      rw [map]
      exact (ThrottleMap.applySuccess_released valid.keyed).others key other
    | release =>
      have kept (entry : AttemptState) :
          entry.lockedUntil ≤ ({ entry with inFlight := entry.inFlight - 1 } : AttemptState).lockedUntil := Nat.le_refl _
      exact locked.modify kept map
  | @dropped guard now contended held found ends =>
    have map := (Option.some.inj ends.map).symm.trans (dropped_eq (awaited held found) timely.1)
    exact locked.modify (fun _ => AttemptState.failed_extends) map

/-- A lockout lasts while its deadline is ahead. -/
theorem LockedTo.lasts {deadline : Nat} (locked : LockedTo key deadline run) (valid : Valid throttle run) :
    run.LockedFor throttle Undisturbed key deadline := by
  intro events final taken early
  refine (Machine.run_preserves (fun state => Valid throttle state ∧ (state.clock < deadline → LockedTo key deadline state))
    ?_ ⟨valid, fun _ => locked⟩ taken).2 early
  intro before event after ⟨valid, locked⟩ spares taken
  obtain ⟨later, course⟩ := step_course taken
  refine ⟨valid.step spares.1 taken, fun early => ?_⟩
  rw [course.clock] at early
  exact (locked (later.trans_lt early)).step valid spares early taken

/-- A failure of a guard is counted, and locks its address for the backoff of the count it brings. -/
theorem failure_locks (valid : Valid throttle run) (member : held ∈ run.guards) (fails : Fails held event)
    (taken : run.step throttle event = some next) :
    ∃ before ∈ run.map.lookup held.key, ∃ entry ∈ next.map.lookup held.key,
      entry.failures = saturatingSucc before.failures ∧
      event.time + backoffFor entry.failures throttle.backoffCap ≤ entry.lockedUntil := by
  have busy : 0 < run.map.slots held.key := by
    rw [valid.slots, List.countP_pos_iff]
    exact ⟨held, member, decide_eq_true rfl⟩
  have own {other : AttemptGuard} (found : run.held held.id = some other) : other = held :=
    List.inj_on_of_nodup_map valid.distinct (held_some found).1 member (held_some found).2
  cases (step_course taken).2 with
  | begun | failure | success | release => cases fails
  | @locked guard now record other found consumed ends =>
    obtain ⟨rfl, failure⟩ := fails
    obtain rfl := own found
    obtain rfl := Option.some.inj (consumed.symm.trans failure)
    have locks := ThrottleMap.applyFailure_locks now throttle.backoffCap busy
    rwa [show next.map = run.map.applyFailure other.key now throttle.backoffCap from (Option.some.inj ends.map).symm]
  | @dropped guard now contended other found ends =>
    obtain ⟨rfl, unconsumed, free⟩ := fails
    obtain rfl := own found
    have locks := ThrottleMap.applyFailure_locks now throttle.backoffCap busy
    rwa [← (dropped_eq unconsumed free).symm.trans (Option.some.inj ends.map)]

/-- Entries are evicted only while the map is at its cap. -/
theorem eviction_full {ip : IpAddr} {chosen : List IpAddr} (kept : run.Bounded)
    (taken : run.step throttle (.tryBegin ip now chosen) = some next) (evicted : chosen ≠ []) :
    run.map.length = maxThrottleEntries := by
  cases (step_course taken).2 with
  | begun begins =>
    obtain ⟨outcome, map, attempt, -⟩ := begin_cases begins
    refine kept.bounded.antisymm ?_
    cases attempt with
    | busy _ unchosen | again _ unchosen => exact absurd unchosen evicted
    | crowded _ cleared | first _ cleared => exact (ThrottleMap.ensureRoom_cleared kept.keyed cleared).full evicted

theorem Valid.of_run {events : List ThrottleEvent} (taken : (machine throttle).run Undisturbed {} events = some next) :
    Valid throttle next :=
  Machine.run_preserves (Valid throttle) (fun _ _ _ valid met taken => valid.step met taken)
    (valid_start throttle) taken

/-- A run is safe in every state if no drop finds the lock taken, no guard gets too old, no request
is dropped while one of its records waits for the lock, and no address is granted an attempt while
a success waits with the time it has read. -/
theorem throttle_safe (throttle : LoginThrottle) (events : List ThrottleEvent) (run : ThrottleRun)
    (taken : (machine throttle).run Undisturbed {} events = some run) : Safe throttle Undisturbed run := by
  have valid := Valid.of_run taken
  refine ⟨valid.slots, valid.limited, valid.bounded, ?_, ?_, ?_⟩
  · intro ip now chosen granted map tried
    cases LoginThrottle.tryBegin_attempt tried with
    | again found _ unlocked =>
      refine ⟨rfl, fun entry present => ?_⟩
      cases found.symm.trans present
      exact unlocked
    | first absent =>
      refine ⟨rfl, fun entry present => ?_⟩
      cases absent.symm.trans present
  · intro event next held member fails undisturbed stepped
    obtain ⟨before, was, entry, found, counted, locks⟩ := failure_locks valid member fails stepped
    exact ⟨before, was, entry, found, counted, LockedTo.lasts ⟨entry, found, locks⟩ (valid.step undisturbed stepped)⟩
  · intro ip now chosen next stepped evicted
    exact eviction_full valid.toBounded stepped evicted

/-- Two attempts of one address at the same time, and the first one fails. -/
def burst : List ThrottleEvent := [.tryBegin (.v4 1) 3 [], .tryBegin (.v4 1) 4 [], .recordFailure 0 5]

def twoSlots : LoginThrottle where
  maxInFlight := 2
  backoffCap := milliseconds 30000
  positive := by decide
  bounded := by decide

/-- Both attempts fail, and the first lockout lasts. -/
theorem throttle_safe_burst : ∃ run, (machine twoSlots).run Undisturbed {} burst = some run ∧
    ∃ next, run.step twoSlots (.takeLock 0 6) = some next ∧ ∃ entry ∈ next.map.lookup (.v4 1), entry.failures = 1 ∧
      ∃ final, (machine twoSlots).run (Spares Undisturbed (.v4 1)) next [.dropGuard 1 7 false] = some final ∧
        ∃ left ∈ final.map.lookup (.v4 1), 6 + backoffFor entry.failures twoSlots.backoffCap ≤ left.lockedUntil := by
  refine ⟨_, rfl, _, rfl, ?_⟩
  obtain ⟨before, was, entry, found, counted, lasts⟩ := (throttle_safe twoSlots burst _ rfl).failed (.takeLock 0 6) _
    { id := 0, key := .v4 1, acquired := 3, consumed := some .failure } (by decide) ⟨rfl, rfl⟩ (by decide) rfl
  cases was
  refine ⟨entry, found, counted, _, rfl, lasts [.dropGuard 1 7 false] _ rfl ?_⟩
  cases found
  decide

def oneSlot : LoginThrottle where
  maxInFlight := 1
  backoffCap := milliseconds 30000
  positive := by decide
  bounded := by decide

/-- A request that is dropped while its failure waits for the lock. -/
def cancelled : List ThrottleEvent := [.tryBegin (.v4 1) 3 [], .recordFailure 0 4, .dropGuard 0 5 false]

/-- Its slot stays, and no failure is counted. -/
theorem cancelled_record_leaks : ¬ ∀ (throttle : LoginThrottle) (events : List ThrottleEvent) (run : ThrottleRun),
    (machine throttle).run Timely {} events = some run → Safe throttle Timely run := by
  intro safe
  have counted := (safe oneSlot cancelled _ (Option.some_get (by decide +kernel)).symm).slots (.v4 1)
  revert counted
  decide +kernel

theorem Bounded.of_released {seen : Nat} (released : ThrottleMap.Released run.map next.map key seen)
    (kept : run.Bounded) : next.Bounded :=
  ⟨released.keyed, released.length_le.trans kept.bounded⟩

theorem Bounded.of_map (same : next.map = run.map) (kept : run.Bounded) : next.Bounded :=
  ⟨same ▸ kept.keyed, same ▸ kept.bounded⟩

theorem Bounded.step (kept : run.Bounded) (taken : run.step throttle event = some next) : next.Bounded := by
  cases (step_course taken).2 with
  | begun begins => exact kept.begin begins
  | failure waits | success waits | release waits => exact kept.of_map waits.map
  | @locked guard now record held found consumed ends =>
    exact kept.of_released (Option.some.inj ends.map ▸ apply_released kept.keyed record)
  | @dropped guard now contended held found ends =>
    have map := (Option.some.inj ends.map).symm
    unfold dropped at map
    split at map
    · exact kept.of_map map
    · exact kept.of_released (map ▸ ThrottleMap.applyFailure_released kept.keyed)

/-- An idle address is refused exactly where it is not admitted. -/
theorem Bounded.begin_refused {ip : IpAddr} {chosen : List IpAddr} (kept : run.Bounded)
    (taken : run.begin throttle ip now chosen = some next) :
    next.refused = [] ↔ run.refused = [] ∧ run.Admits throttle (.tryBegin ip now chosen) := by
  unfold ThrottleRun.begin at taken
  split at taken
  · cases taken
  · next granted map tried =>
    cases taken
    refine ⟨fun none_refused => ⟨none_refused, fun _ => ?_⟩, And.left⟩
    cases LoginThrottle.tryBegin_attempt tried with
    | again found _ _ free =>
      refine ⟨fun entry present => ?_, fun absent => ?_⟩
      · cases found.symm.trans present
        exact free
      · cases found.symm.trans absent
    | first absent cleared =>
      refine ⟨fun entry present => ?_, fun _ => ?_⟩
      · cases absent.symm.trans present
      · exact (ThrottleMap.ensureRoom_iff kept.bounded cleared).mp rfl
  · next decision map tried =>
    cases taken
    by_cases idle : run.Idle (normalizeIp ip) now
    · simp only [if_pos idle]
      refine ⟨nofun, fun ⟨_, admits⟩ => ?_⟩
      obtain ⟨free, room⟩ := admits idle
      exfalso
      cases LoginThrottle.tryBegin_attempt tried with
      | busy found _ barred =>
        rcases barred with locked | full
        · exact absurd (idle.2.2 _ found) (Nat.not_le.mpr locked)
        · exact absurd (free _ found) (Nat.not_lt.mpr full)
      | crowded absent cleared => cases (ThrottleMap.ensureRoom_iff kept.bounded cleared).mpr (room absent)
    · simp only [if_neg idle]
      exact ⟨fun none_refused => ⟨none_refused, fun active => absurd active idle⟩, And.left⟩

theorem Bounded.step_refused (kept : run.Bounded) (taken : run.step throttle event = some next) :
    next.refused = [] ↔ run.refused = [] ∧ run.Admits throttle event := by
  have unasked (same : next.refused = run.refused) : next.refused = [] ↔ run.refused = [] ∧ True := by
    rw [same, and_true]
  cases (step_course taken).2 with
  | begun begins => exact kept.begin_refused begins
  | failure waits | success waits | release waits => exact unasked waits.refused
  | locked _ _ _ ends | dropped _ _ ends => exact unasked ends.refused

/-- A run never refuses an idle address, whatever drops were lost, exactly if each of its attempts
by an idle address finds slots below the limit or, without an entry, room. -/
theorem idle_granted_iff (throttle : LoginThrottle) (events : List ThrottleEvent) (run : ThrottleRun)
    (taken : (machine throttle).run Machine.free {} events = some run) :
    run.refused = [] ↔ (machine throttle).run (Admits throttle) {} events = some run := by
  have start : Bounded {} := (valid_start throttle).toBounded
  have good := @Machine.run_good_iff _ _ (machine throttle) (Admits throttle) _ Bounded (fun run => run.refused = [])
    (fun _ _ _ kept taken => kept.step taken) (fun _ _ _ kept taken => kept.step_refused taken)
  rw [good start taken]
  exact and_iff_right rfl

/-- A drop that finds the lock taken, and a new attempt of its address after the age of a stale slot. -/
def lostDrop : List ThrottleEvent :=
  [.tryBegin (.v4 1) 0 [], .dropGuard 0 1 true, .tryBegin (.v4 1) (milliseconds 300000 + 2) []]

theorem idle_granted_iff_shared : ∃ run, (machine twoSlots).run Machine.free {} lostDrop = some run ∧ run.refused = [] :=
  ⟨_, rfl, (idle_granted_iff twoSlots lostDrop _ rfl).mpr rfl⟩

theorem leaked_slot_refused : ¬ ∀ (throttle : LoginThrottle) (events : List ThrottleEvent) (run : ThrottleRun),
    (machine throttle).run Machine.free {} events = some run → run.refused = [] := by
  intro recovers
  have granted := recovers oneSlot lostDrop _ rfl
  revert granted
  decide

end ThrottleRun
end Wisphive
