import Wisphive.RateLimiter

/-! The limiters over runs of attempts. What counts of a limiter is what it would find for each
key from now on. -/

namespace Wisphive
open Foundation SlidingWindow

namespace RateLimiter
variable {Key : Type} [DecidableEq Key] {limiter other : RateLimiter Key} {key wanted : Key} {now time : Nat}
  {attempt : Attempt Key} {attempts before later : List (Attempt Key)} {window maxPerWindow : Nat}

/-- The hits that an attempt for a key would find. -/
def live (limiter : RateLimiter Key) (key : Key) (now : Nat) : List Nat :=
  recent limiter.window now ((limiter.inner.lookup key).getD [])

theorem lookup_retained {inner : List (Key × List Nat)} (keyed : Assoc.Keyed inner) :
    ((retained window now inner).lookup key).getD [] = recent window now ((inner.lookup key).getD []) := by
  have mapped : Assoc.Keyed (inner.map fun entry => (entry.1, recent window now entry.2)) := by
    rw [Assoc.Keyed, List.map_map]
    exact keyed
  have found : (inner.map fun entry => (entry.1, recent window now entry.2)).lookup key =
      (inner.lookup key).map (recent window now) := by
    clear mapped keyed
    induction inner with
    | nil => rfl
    | cons entry rest ih =>
      rw [List.map_cons, List.lookup_cons, List.lookup_cons, ih]
      split <;> rfl
  have kept := @mapped.lookup_filter _ _ _ _ key fun entry => !entry.2.isEmpty
  rw [found] at kept
  rw [retained]
  unfold recent at kept ⊢
  rw [kept]
  cases inner.lookup key with
  | none => rfl
  | some hits =>
    rw [Option.map_some, Option.filter_some]
    split
    · rfl
    · next empty =>
      rw [Bool.not_eq_true', Bool.not_eq_false] at empty
      exact (List.isEmpty_iff.mp empty).symm

theorem tryAcquire_limits :
    (limiter.tryAcquire key now).2.window = limiter.window ∧
      (limiter.tryAcquire key now).2.maxPerWindow = limiter.maxPerWindow := by
  unfold tryAcquire
  dsimp only
  split <;> exact ⟨rfl, rfl⟩

/-- What an attempt does to the entries. -/
theorem tryAcquire_cases :
    let inner := retained limiter.window now limiter.inner
    let hits := (inner.lookup key).getD []
    (limiter.maxPerWindow ≤ hits.length ∧ (limiter.tryAcquire key now).1 = false ∧
        (limiter.tryAcquire key now).2.inner = Assoc.put inner key hits) ∨
      (hits.length < limiter.maxPerWindow ∧ (limiter.tryAcquire key now).1 = true ∧
        (limiter.tryAcquire key now).2.inner = Assoc.put inner key (hits ++ [now])) := by
  unfold tryAcquire
  dsimp only
  split
  · next full => exact .inl ⟨full, rfl, rfl⟩
  · next room => exact .inr ⟨Nat.not_le.mp room, rfl, rfl⟩

theorem tryAcquire_eq : (limiter.tryAcquire key now).1 = decide ((limiter.live key now).length < limiter.maxPerWindow) := by
  have hits := @lookup_retained _ _ key now limiter.window limiter.inner limiter.keyed
  obtain ⟨full, denied, _⟩ | ⟨room, granted, _⟩ := @tryAcquire_cases _ _ limiter key now
  · rw [hits] at full
    rw [denied]
    exact (decide_eq_false (Nat.not_lt.mpr full)).symm
  · rw [hits] at room
    rw [granted]
    exact (decide_eq_true room).symm

/-- An attempt adds its time to what its key finds later, where it is granted. -/
theorem live_tryAcquire (onward : now ≤ time) :
    (limiter.tryAcquire key now).2.live wanted time =
      limiter.live wanted time ++
        if (limiter.tryAcquire key now).1 = true ∧ wanted = key then recent limiter.window time [now] else [] := by
  have seen : ∀ wanted, recent limiter.window time (((retained limiter.window now limiter.inner).lookup wanted).getD []) =
      limiter.live wanted time := by
    intro wanted
    rw [lookup_retained limiter.keyed, recent_recent onward, live]
  rw [live, tryAcquire_limits.1]
  obtain ⟨_, denied, left⟩ | ⟨_, granted, left⟩ := @tryAcquire_cases _ _ limiter key now
  · have refused : ¬ (false = true ∧ wanted = key) := fun both => Bool.false_ne_true both.1
    rw [denied, left, Assoc.lookup_put, if_neg refused, List.append_nil, ← seen wanted]
    split
    · next same => rw [same, Option.getD_some]
    · rfl
  · rw [granted, left, Assoc.lookup_put, ← seen wanted]
    by_cases same : wanted = key
    · rw [if_pos same, if_pos ⟨rfl, same⟩, Option.getD_some, recent_append, same]
    · rw [if_neg same, if_neg (fun both => same both.2), List.append_nil]

/-- The limiters decide alike on a key from now on. -/
structure Alike (key : Key) (now : Nat) (limiter other : RateLimiter Key) : Prop where
  window : limiter.window = other.window
  maxPerWindow : limiter.maxPerWindow = other.maxPerWindow
  live : ∀ time, now ≤ time → limiter.live key time = other.live key time

theorem Alike.granted (alike : Alike key now limiter other) (onward : now ≤ time) :
    (limiter.tryAcquire key time).1 = (other.tryAcquire key time).1 := by
  rw [tryAcquire_eq, tryAcquire_eq, alike.live time onward, alike.maxPerWindow]

/-- The same attempt on both. -/
theorem Alike.both (alike : Alike wanted now limiter other) (onward : now ≤ time) :
    Alike wanted time (limiter.tryAcquire key time).2 (other.tryAcquire key time).2 := by
  refine ⟨?_, ?_, ?_⟩
  · rw [tryAcquire_limits.1, tryAcquire_limits.1, alike.window]
  · rw [tryAcquire_limits.2, tryAcquire_limits.2, alike.maxPerWindow]
  · intro next after
    rw [live_tryAcquire after, live_tryAcquire after, alike.live next (Nat.le_trans onward after), alike.window]
    by_cases same : wanted = key
    · subst same
      rw [alike.granted onward]
    · rw [if_neg (fun both => same both.2), if_neg (fun both => same both.2)]

/-- An attempt for another key, or one that is denied. -/
theorem Alike.aside (alike : Alike wanted now limiter other) (onward : now ≤ time)
    (aside : ¬ ((limiter.tryAcquire key time).1 = true ∧ wanted = key)) :
    Alike wanted time (limiter.tryAcquire key time).2 other := by
  refine ⟨tryAcquire_limits.1.trans alike.window, tryAcquire_limits.2.trans alike.maxPerWindow, ?_⟩
  intro next after
  rw [live_tryAcquire after, if_neg aside, List.append_nil, alike.live next (Nat.le_trans onward after)]

theorem alike_self : Alike key now limiter limiter :=
  ⟨rfl, rfl, fun _ _ => rfl⟩

omit [DecidableEq Key] in
theorem InOrder.first (ordered : InOrder (attempt :: attempts)) : ∀ later ∈ attempts, attempt.2 ≤ later.2 :=
  (List.pairwise_cons.mp ordered).1

theorem verdicts_alike (ordered : InOrder attempts) (from_ : ∀ attempt ∈ attempts, now ≤ attempt.2)
    (alike : ∀ key, Alike key now limiter other) : limiter.verdicts attempts = other.verdicts attempts := by
  induction attempts generalizing limiter other now with
  | nil => rfl
  | cons attempt rest ih =>
    have onward := from_ attempt List.mem_cons_self
    rw [verdicts, verdicts, (alike attempt.1).granted onward]
    exact congrArg _ (ih (List.pairwise_cons.mp ordered).2 ordered.first fun key => (alike key).both onward)

theorem verdicts_filter (ordered : InOrder attempts) (from_ : ∀ attempt ∈ attempts, now ≤ attempt.2)
    (alike : Alike key now limiter other) :
    (limiter.verdicts attempts).filter (fun verdict => verdict.1.1 = key) =
      other.verdicts (attempts.filter fun attempt => attempt.1 = key) := by
  induction attempts generalizing limiter other now with
  | nil => rfl
  | cons attempt rest ih =>
    have onward := from_ attempt List.mem_cons_self
    have tail := @ih (limiter.tryAcquire attempt.1 attempt.2).2
    rw [verdicts]
    by_cases same : attempt.1 = key
    · subst same
      rw [List.filter_cons_of_pos (by simp), List.filter_cons_of_pos (by simp), verdicts, alike.granted onward]
      exact congrArg _ (tail (List.pairwise_cons.mp ordered).2 ordered.first (alike.both onward))
    · rw [List.filter_cons_of_neg (by simpa using same), List.filter_cons_of_neg (by simpa using same)]
      refine tail (List.pairwise_cons.mp ordered).2 ordered.first (alike.aside onward ?_)
      exact fun both => same both.2.symm

/-! ### What was granted -/

theorem after_snoc :
    limiter.after (attempts ++ [attempt]) = ((limiter.after attempts).tryAcquire attempt.1 attempt.2).2 :=
  List.foldl_append ..

theorem verdicts_append : limiter.verdicts (before ++ later) = limiter.verdicts before ++ (limiter.after before).verdicts later := by
  induction before generalizing limiter with
  | nil => rfl
  | cons attempt rest ih =>
    rw [List.cons_append, verdicts, verdicts, ih]
    rfl

theorem grants_snoc :
    limiter.grants key (attempts ++ [attempt]) =
      limiter.grants key attempts ++
        if ((limiter.after attempts).tryAcquire attempt.1 attempt.2).1 = true ∧ key = attempt.1 then [attempt.2] else [] := by
  rw [grants, verdicts_append, List.filter_append, List.map_append, ← grants]
  congr 1
  rw [verdicts, verdicts]
  split
  · next both => rw [List.filter_cons_of_pos (by simpa using ⟨both.1, both.2.symm⟩)]; rfl
  · next neither => rw [List.filter_cons_of_neg (by simpa using fun granted same => neither ⟨granted, same.symm⟩)]; rfl

/-- What the limiter holds of a key are the grants in the window, and each was in its limits. -/
structure Counted (limiter : RateLimiter Key) (key : Key) (attempts : List (Attempt Key)) : Prop where
  window : (limiter.after attempts).window = limiter.window
  maxPerWindow : (limiter.after attempts).maxPerWindow = limiter.maxPerWindow
  live : ∀ now, (∀ attempt ∈ attempts, attempt.2 ≤ now) →
    (limiter.after attempts).live key now = recent limiter.window now (limiter.grants key attempts)
  attempted : ∀ time ∈ limiter.grants key attempts, ∃ attempt ∈ attempts, attempt.2 = time
  admitted : Admitted limiter.maxPerWindow limiter.window (limiter.grants key attempts)

theorem counted_snoc (counted : Counted limiter key attempts) (latest : ∀ earlier ∈ attempts, earlier.2 ≤ attempt.2) :
    Counted limiter key (attempts ++ [attempt]) := by
  have here := counted.live attempt.2 latest
  refine ⟨?_, ?_, ?_, ?_, ?_⟩
  · rw [after_snoc, tryAcquire_limits.1, counted.window]
  · rw [after_snoc, tryAcquire_limits.2, counted.maxPerWindow]
  · intro now bound
    have past := bound attempt (List.mem_append_right _ List.mem_cons_self)
    rw [after_snoc, live_tryAcquire past, grants_snoc, recent_append, counted.window,
      counted.live now fun earlier member => bound earlier (List.mem_append_left _ member)]
    split <;> rfl
  · intro time member
    rw [grants_snoc] at member
    rcases List.mem_append.mp member with old | new
    · obtain ⟨earlier, inside, same⟩ := counted.attempted time old
      exact ⟨earlier, List.mem_append_left _ inside, same⟩
    · split at new
      · exact ⟨attempt, List.mem_append_right _ List.mem_cons_self, (List.mem_singleton.mp new).symm⟩
      · cases new
  · rw [grants_snoc]
    split
    · next both =>
      refine .snoc counted.admitted ?_ ?_
      · intro time member
        obtain ⟨earlier, inside, rfl⟩ := counted.attempted time member
        exact latest earlier inside
      · rw [tryAcquire_eq, decide_eq_true_eq, ← both.2, here, counted.maxPerWindow] at both
        exact both.1
    · rw [List.append_nil]
      exact counted.admitted

theorem counted (ordered : InOrder attempts) : Counted (withLimits window maxPerWindow) key attempts := by
  induction attempts using List.reverseRecOn with
  | nil => exact ⟨rfl, rfl, fun _ _ => rfl, nofun, .nil⟩
  | append_singleton attempts attempt ih =>
    obtain ⟨earlier, _, latest⟩ := List.pairwise_append.mp ordered
    exact counted_snoc (ih earlier) fun other member => latest other member attempt List.mem_cons_self

/-- In every window at most the budget is granted, an attempt is denied exactly where that many
grants of its key are recent, a denied attempt leaves no trace, and the keys do not meet. -/
theorem sliding_window_exact (ordered : InOrder attempts) :
    (∀ key start, (within window start ((withLimits window maxPerWindow).grants key attempts)).length ≤ maxPerWindow) ∧
      (∀ before attempt later, attempts = before ++ attempt :: later →
        let reached := (withLimits window maxPerWindow).after before
        let result := reached.tryAcquire attempt.1 attempt.2
        (result.1 = false ↔
            maxPerWindow ≤ (recent window attempt.2 ((withLimits window maxPerWindow).grants attempt.1 before)).length) ∧
          (result.1 = false → result.2.verdicts later = reached.verdicts later)) ∧
        ∀ key, ((withLimits window maxPerWindow).verdicts attempts).filter (fun verdict => verdict.1.1 = key) =
          (withLimits window maxPerWindow).verdicts (attempts.filter fun attempt => attempt.1 = key) := by
  refine ⟨fun key start => (counted ordered).admitted.within_le, ?_, fun key => ?_⟩
  · rintro before attempt later rfl
    obtain ⟨first, last, across⟩ := List.pairwise_append.mp ordered
    have counted := @counted _ _ attempt.1 _ window maxPerWindow first
    have here := counted.live attempt.2 fun earlier member => across earlier member attempt List.mem_cons_self
    dsimp only
    refine ⟨?_, fun denied => ?_⟩
    · rw [tryAcquire_eq, decide_eq_false_iff_not, Nat.not_lt, here, counted.maxPerWindow]
      exact Iff.rfl
    · refine verdicts_alike (List.pairwise_cons.mp last).2 (List.pairwise_cons.mp last).1 fun key => ?_
      exact alike_self.aside (Nat.le_refl _) fun both => Bool.false_ne_true (denied.symm.trans both.1)
  · exact verdicts_filter ordered (fun _ _ => Nat.zero_le _) alike_self

instance (attempts : List (Attempt Key)) : Decidable (InOrder attempts) :=
  inferInstanceAs (Decidable (attempts.Pairwise _))

/-- Eleven attempts at once, one of another key, and one when the window has passed. -/
def burst (key other : Key) : List (Attempt Key) :=
  List.replicate 11 (key, 0) ++ [(other, 1), (key, 60 * 1000000000)]

/-- The eleventh is denied. -/
theorem sliding_window_exact_burst :
    (ReplayRateLimiter.new.verdicts (burst "human:tui" "human:web:a")).map (·.2) =
        List.replicate 10 true ++ [false, true, true] ∧
      (∀ key start, (within ReplayRateLimiter.replayWindow start
        (ReplayRateLimiter.new.grants key (burst "human:tui" "human:web:a"))).length ≤ 10) ∧
      (BadHelloRateLimiter.new.verdicts (burst 501 502)).map (·.2) = List.replicate 10 true ++ [false, true, true] ∧
        ∀ key start, (within BadHelloRateLimiter.badHelloWindow start
          (BadHelloRateLimiter.new.grants key (burst 501 502))).length ≤ 10 := by
  have replays : InOrder (burst "human:tui" "human:web:a") := by decide +kernel
  have hellos : InOrder (burst (501 : UInt32) 502) := by decide +kernel
  refine ⟨by decide +kernel, ?_, by decide +kernel, ?_⟩
  · exact (sliding_window_exact replays).1
  · exact (sliding_window_exact hellos).1

end RateLimiter
end Wisphive
