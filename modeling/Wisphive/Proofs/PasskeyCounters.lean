import Wisphive.Proofs.WebRules

/-! Passkey logins whose counters come in order keep the stored counter going up. -/

namespace Wisphive
open Foundation Program WebAuth WebTrace

variable {platform : AuthPlatform} {task : Nat} {trace : WebTrace platform} {shared after : WebShared}

/-- An operation that leaves the enrolled passkeys where they are. -/
def KeepsPasskeys : WebOp → Prop
  | .execute .resetWebPassword | .execute (.insertWebPasskey _) => False
  | _ => True

section Footprint

theorem recordDevice_keepsPasskeys (name : String → String) (enrolling : Option String) :
    Asks KeepsPasskeys (recordDevice platform name enrolling) := by
  refine uses_ask trivial fun drawn _ => ?_
  refine uses_ask trivial fun inserted _ => ?_
  cases inserted <;> trivial

theorem acceptAssertion_keepsPasskeys (body : PasskeyFinishRequest) (state : String) (stored : WebPasskeyRow) :
    Asks KeepsPasskeys (acceptAssertion platform body state stored) := by
  unfold acceptAssertion
  split
  · trivial
  · split
    · trivial
    · split
      · trivial
      · exact uses_ask trivial fun _ _ => recordDevice_keepsPasskeys _ _

theorem postPasskeyLoginFinish_keepsPasskeys (rpId : Option String) (body : PasskeyFinishRequest) :
    Asks KeepsPasskeys (postPasskeyLoginFinish platform rpId body) := by
  refine uses_ask trivial fun slot _ => ?_
  cases slot with
  | error retryAfter => trivial
  | ok _ =>
    cases rpId with
    | none => trivial
    | some rpId =>
      refine uses_ask trivial fun taken _ => ?_
      match taken with
      | none | some (.register ..) => trivial
      | some (.login state) =>
        refine uses_ask trivial fun resolved _ => ?_
        cases resolved with
        | false => trivial
        | true =>
          refine uses_ask trivial fun found _ => ?_
          match found with
          | .error error | .ok none => trivial
          | .ok (some stored) => exact acceptAssertion_keepsPasskeys body state stored

theorem passkeyLoginStart_keepsPasskeys (rpId : Option String) :
    Asks KeepsPasskeys (postPasskeyLoginStart rpId) := by
  refine passkeyLoginStart_uses rpId fun op _ other => ?_
  cases op with
  | execute statement => exact absurd rfl (other statement)
  | _ => trivial

/-- The route decides what runs behind the middleware. -/
theorem securityMiddleware_keepsPasskeys {incoming : WebRequest}
    (handler : Asks KeepsPasskeys (authenticated platform incoming incoming.route)) :
    Asks KeepsPasskeys (securityMiddleware platform incoming) := by
  unfold securityMiddleware
  split
  · trivial
  · split
    · trivial
    · split
      · exact handler
      · refine uses_ask trivial fun known _ => ?_
        match known with
        | .error error | .ok false => trivial
        | .ok true => exact handler

theorem passkeyLogin_keepsPasskeys {job : WebJob}
    (admitted : (passkeyLogins platform).admits job ([] : WebTrace platform) = true) : Asks KeepsPasskeys (body platform job) := by
  have answered {incoming : WebRequest}
      (handler : Asks KeepsPasskeys (authenticated platform incoming incoming.route)) :
      Asks KeepsPasskeys (body platform (.http incoming)) :=
    uses_bind (securityMiddleware_keepsPasskeys handler) fun response _ => uses_ask trivial fun _ _ => trivial
  match job with
  | .http ⟨.anyone .passkeyLoginStart, rpId, _, _⟩ => exact answered (passkeyLoginStart_keepsPasskeys rpId)
  | .http ⟨.anyone (.passkeyLoginFinish finish), rpId, _, _⟩ =>
    exact answered (postPasskeyLoginFinish_keepsPasskeys rpId finish)
  | .http ⟨.anyone (.setPassword _), _, _, _⟩ | .http ⟨.anyone (.login _), _, _, _⟩ | .http ⟨.bearer .., _, _, _⟩
  | .setPassword _ | .resetPassword | .devicesRevoke _ => cases admitted

end Footprint

section Stored

theorem signCount_update (tables : WebAuthTables) (id other : String) (count : Nat) :
    (tables.updatePasskeySignCount id count).signCount other =
      if id = other then (tables.signCount other).map fun _ => count else tables.signCount other := by
  obtain ⟨password, devices, passkeys⟩ := tables
  simp only [WebAuthTables.signCount, WebAuthTables.findWebPasskeyByCredentialId, WebAuthTables.updatePasskeySignCount]
  induction passkeys with
  | nil => simp
  | cons row rest ih =>
    rw [List.map_cons, List.find?_cons, List.find?_cons]
    by_cases mine : row.id = id
    · by_cases same : id = other
      · simp [mine, same]
      · simpa [mine, same] using ih
    · by_cases found : row.id = other
      · have differ : id ≠ other := fun same => mine (found.trans same.symm)
        simp [found, differ, differ.symm]
      · simpa [mine, found] using ih

/-- Only an update of the counter changes the stored one. -/
theorem perform_signCount {choice : WebChoice} {op : WebOp} {reply : op.Reply} (keeps : KeepsPasskeys op)
    (performed : shared.perform platform choice op = some (reply, after))
    (other : ∀ id count, op ≠ .execute (.updatePasskeySignCount id count)) (id : String) :
    after.tables.signCount id = shared.tables.signCount id := by
  cases op with
  | execute statement =>
    rcases perform_execute performed with ⟨value, tables, _, executed, rfl⟩ | ⟨error, _, rfl⟩
    · cases statement with
      | resetWebPassword | insertWebPasskey => exact keeps.elim
      | updatePasskeySignCount id count => exact absurd rfl (other id count)
      | insertWebDevice id name tokenHash =>
        simp only [WebStatement.execute, WebAuthTables.insertWebDevice] at executed
        split at executed <;> cases executed
        rfl
      | trySetInitialWebPasswordAndDevice argon2Hash id name tokenHash =>
        simp only [WebStatement.execute, WebAuthTables.trySetInitialWebPasswordAndDevice,
          WebAuthTables.insertWebDevice] at executed
        repeat' split at executed
        all_goals cases executed
        all_goals rfl
      | replaceWebPasswordHashIfCurrent expected replacement =>
        simp only [WebStatement.execute, WebAuthTables.replaceWebPasswordHashIfCurrent] at executed
        split at executed <;> cases executed <;> rfl
      | _ =>
        cases executed
        rfl
    · rfl
  | _ => rw [perform_tables (fun _ same => (by cases same)) performed]

/-- An update stores the counter of a row that is there. -/
theorem update_stored {choice : WebChoice} {id : String} {count : Nat} {reply : Except WebAuthError Unit}
    (performed : shared.perform platform choice (.execute (.updatePasskeySignCount id count)) = some (reply, after))
    (other : String) (enrolled : (shared.tables.signCount id).isSome) :
    (∃ error, reply = .error error ∧ after = shared) ∨
    (reply = .ok () ∧ after.stored other = if id = other then count else shared.stored other) := by
  rcases perform_execute performed with ⟨value, tables, rfl, executed, rfl⟩ | failed
  · cases executed
    refine .inr ⟨rfl, ?_⟩
    rw [WebShared.stored, signCount_update]
    split
    next same =>
      obtain ⟨stored, found⟩ := Option.isSome_iff_exists.mp enrolled
      rw [← same, found]
      rfl
    next => rfl
  · exact .inl failed

end Stored

namespace WebTrace

/-- The counters of accepted assertions, newest first. -/
abbrev accepted (id : String) (trace : WebTrace platform) : List Nat := trace.filterMap (accepts id)

abbrev lost (id : String) (trace : WebTrace platform) : List Nat := trace.filterMap (loses id)

end WebTrace

/-- What is accepted is lost, or stored by now. -/
def Shown (platform : AuthPlatform) (id : String) (count : Nat) (trace : WebTrace platform) : Prop :=
  ∀ counter ∈ accepted id trace, counter ∈ lost id trace ∨ counter ≤ count

/-- The counters so far, and what each login has seen of them. -/
structure CountersKept (platform : AuthPlatform) (trace : WebTrace platform) (shared : WebShared) : Prop where
  monotone : CountersMonotone platform { shared, trace }
  shown : ∀ id, Shown platform id (shared.stored id) trace
  seen : ∀ task id before row later earlier,
    trace = later ++ .performed task (.execute (.findWebPasskeyByCredentialId id)) before (.ok (some row)) :: earlier →
      (shared.tables.signCount id).isSome ∧ Shown platform id row.signCount earlier ∧
        (shared.stored id ≤ row.signCount ∨ shared.stored id ∈ accepted id later)

namespace CountersKept

theorem start (tables : WebAuthTables) : CountersKept platform [] (.opened tables) where
  monotone :=
    { increasing _ := .nil
      neverLowered _ := List.pairwise_singleton ..
      regressionRefused _ _ _ _ _ member := nomatch member }
  shown _ _ member := nomatch member
  seen task id before row later earlier split := by
    cases later <;> cases split

/-- What accepts no assertion keeps the counters. A row that is read shows them. -/
theorem unaccepting (kept : CountersKept platform trace shared) {entry : Entry (web platform)}
    (silent : ∀ id, accepts id entry = none ∧ loses id entry = none)
    (same : ∀ id, after.tables.signCount id = shared.tables.signCount id)
    (before : ∀ task op earlier reply, entry = .performed task op earlier reply → earlier = shared)
    (reads : ∀ task id earlier row,
      entry = .performed task (.execute (.findWebPasskeyByCredentialId id)) earlier (.ok (some row)) →
      shared.tables.signCount id = some row.signCount) :
    CountersKept platform (entry :: trace) after := by
  have stored (id : String) : after.stored id = shared.stored id := by
    rw [WebShared.stored, same, WebShared.stored]
  have still (id : String) : accepted id (entry :: trace) = accepted id trace :=
    List.filterMap_cons_none (silent id).1
  have none (id : String) : lost id (entry :: trace) = lost id trace := List.filterMap_cons_none (silent id).2
  refine ⟨⟨fun id => ?_, fun id => ?_, fun task id count earlier reply member => ?_⟩, fun id => ?_, ?_⟩
  · change ((accepted id (entry :: trace)).filter _).Pairwise _
    rw [still]
    exact kept.monotone.increasing id
  · have counts := kept.monotone.neverLowered id
    simp only [storedCounts, stored] at counts ⊢
    cases entry with
    | launched | drifted => exact counts
    | performed task op earlier reply =>
      rw [before task op earlier reply rfl]
      refine List.pairwise_cons.mpr ⟨fun count member => ?_, counts⟩
      rcases List.mem_cons.mp member with rfl | old
      · exact Nat.le_refl _
      · exact List.rel_of_pairwise_cons counts old
  · rcases List.mem_cons.mp member with rfl | old
    · have accepting := (silent id).1
      simp only [accepts, if_true, reduceCtorEq] at accepting
    · exact kept.monotone.regressionRefused task id count earlier reply old
  · rw [Shown, still, none, stored]
    exact kept.shown id
  · intro task id read row later earlier split
    cases later with
    | nil =>
      cases split
      have found := reads task id read row rfl
      have shows : shared.stored id = row.signCount := by rw [WebShared.stored, found, Option.getD_some]
      refine ⟨by rw [same, found]; rfl, shows ▸ kept.shown id, .inl ?_⟩
      rw [stored, shows]
    | cons newest later =>
      cases split
      obtain ⟨enrolled, shown, current⟩ := kept.seen task id read row later earlier rfl
      refine ⟨same id ▸ enrolled, shown, ?_⟩
      rw [stored, accepted, List.filterMap_cons_none (silent id).1]
      exact current

/-- What a login that compares its counter may go by: the row is there, and the counter
is above all that was accepted, or stands for none. -/
theorem above (kept : CountersKept platform trace shared) {id : String} {count : Nat}
    (compares : Compares task id count (own task trace))
    (granted : (if count = 0 then decide (shared.stored id = 0)
      else (unseen task id trace).all fun other => decide (other < count)) = true) :
    (shared.tables.signCount id).isSome ∧
      (count = 0 ∧ shared.stored id = 0 ∨ shared.stored id < count ∧ ∀ counter ∈ accepted id trace, counter < count) := by
  obtain ⟨before, row, rest, newest, passes⟩ := compares
  obtain ⟨later, earlier, split, foreign, _⟩ := own_head newest
  obtain ⟨enrolled, shown, current⟩ := kept.seen task id before row later earlier split
  refine ⟨enrolled, ?_⟩
  split at granted
  next zero => exact .inl ⟨zero, of_decide_eq_true granted⟩
  next counts =>
    have since : trace.takeWhile (fun entry => !readsRow task id entry) = later := by
      rw [split, List.takeWhile_append_of_pos, List.takeWhile_cons_of_neg, List.append_nil]
      · simp [readsRow]
      · intro entry member
        have other := foreign entry member
        unfold readsRow
        split
        next reader found _ _ =>
          have differ : reader ≠ task := fun same => other (by rw [same]; rfl)
          simp [differ]
        next => rfl
    have below : ∀ counter, counter ∈ accepted id later ∨ counter ∈ lost id trace → counter < count := by
      intro counter member
      rw [unseen, since] at granted
      exact of_decide_eq_true (List.all_eq_true.mp granted counter (List.mem_append.mpr member))
    have passed : row.signCount < count := passes.resolve_left counts
    refine .inr ⟨?_, fun counter member => ?_⟩
    · rcases current with shows | stored
      · omega
      · exact below _ (.inl stored)
    · rw [split, accepted, List.filterMap_append, List.mem_append, List.filterMap_cons_none rfl] at member
      rcases member with new | old
      · exact below counter (.inl new)
      · rcases shown counter old with missed | stored
        · refine below counter (.inr ?_)
          rw [split, lost, List.filterMap_append, List.filterMap_cons_none rfl]
          exact List.mem_append_right _ missed
        · omega

/-- An accepted counter goes on top of the others. -/
theorem accept (kept : CountersKept platform trace shared) {choice : WebChoice} {id : String} {count : Nat}
    {reply : Except WebAuthError Unit} (compares : Compares task id count (own task trace))
    (granted : (if count = 0 then decide (shared.stored id = 0)
      else (unseen task id trace).all fun other => decide (other < count)) = true)
    (performed : shared.perform platform choice (.execute (.updatePasskeySignCount id count)) = some (reply, after)) :
    CountersKept platform (.performed task (.execute (.updatePasskeySignCount id count)) shared reply :: trace) after := by
  obtain ⟨enrolled, order⟩ := kept.above compares granted
  have rises (other : String) : shared.stored other ≤ after.stored other := by
    rcases update_stored performed other enrolled with ⟨error, _, rfl⟩ | ⟨_, stored⟩
    · exact Nat.le_refl _
    · rw [stored]
      split
      next same =>
        subst same
        omega
      next => exact Nat.le_refl _
  have accepting (other : String) : accepted other
      (.performed task (.execute (.updatePasskeySignCount id count)) shared reply :: trace) =
        if id = other then count :: accepted other trace else accepted other trace := by
    simp only [accepted, List.filterMap_cons, accepts]
    split <;> simp_all
  have losing (other : String) : lost other
      (.performed task (.execute (.updatePasskeySignCount id count)) shared reply :: trace) =
        match reply with
        | .error _ => if id = other then count :: lost other trace else lost other trace
        | .ok _ => lost other trace := by
    cases reply with
    | error error =>
      simp only [lost, List.filterMap_cons, loses]
      split <;> simp_all
    | ok value => rfl
  have missed {other : String} {counter : Nat} (member : counter ∈ lost other trace) : counter ∈ lost other
      (.performed task (.execute (.updatePasskeySignCount id count)) shared reply :: trace) := by
    rw [losing]
    cases reply with
    | error error =>
      simp only
      split
      · exact List.mem_cons_of_mem _ member
      · exact member
    | ok value => exact member
  refine ⟨⟨fun other => ?_, fun other => ?_, fun writer other counter before answer member => ?_⟩,
    fun other counter member => ?_, fun reader other read row later earlier split => ?_⟩
  · change ((accepted other _).filter _).Pairwise _
    rw [accepting]
    split
    next same =>
      subst same
      rw [List.filter_cons]
      split
      next counts =>
        have positive : 0 < count := by simpa using counts
        refine List.pairwise_cons.mpr ⟨fun counter member => ?_, kept.monotone.increasing id⟩
        rcases order with ⟨zero, _⟩ | ⟨_, above⟩
        · omega
        · exact above counter (List.mem_of_mem_filter member)
      next => exact kept.monotone.increasing id
    next => exact kept.monotone.increasing other
  · have counts := kept.monotone.neverLowered other
    refine List.pairwise_cons.mpr ⟨fun count member => ?_, counts⟩
    rcases List.mem_cons.mp member with rfl | old
    · exact rises other
    · exact Nat.le_trans (List.rel_of_pairwise_cons counts old) (rises other)
  · rcases List.mem_cons.mp member with same | old
    · cases same
      intro positive
      omega
    · exact kept.monotone.regressionRefused writer other counter before answer old
  · rw [accepting] at member
    have old (member : counter ∈ accepted other trace) : counter ∈ lost other
        (.performed task (.execute (.updatePasskeySignCount id count)) shared reply :: trace) ∨
          counter ≤ after.stored other := by
      rcases kept.shown other counter member with gone | stored
      · exact .inl (missed gone)
      · exact .inr (Nat.le_trans stored (rises other))
    split at member
    next same =>
      rcases List.mem_cons.mp member with rfl | earlier
      · rcases update_stored performed other enrolled with ⟨error, rfl, _⟩ | ⟨_, stored⟩
        · refine .inl ?_
          rw [losing]
          simp only [same, if_true]
          exact List.mem_cons_self ..
        · rw [stored, if_pos same]
          exact .inr (Nat.le_refl _)
      · exact old earlier
    next => exact old member
  · cases later with
    | nil => cases split
    | cons newest later =>
      cases split
      obtain ⟨present, shown, current⟩ := kept.seen reader other read row later earlier rfl
      refine ⟨?_, shown, ?_⟩
      · rcases perform_execute performed with ⟨value, tables, _, executed, rfl⟩ | ⟨error, _, rfl⟩
        · cases executed
          rw [signCount_update]
          split
          · rw [Option.isSome_map]
            exact present
          · exact present
        · exact present
      · have grown : accepted other (.performed task (.execute (.updatePasskeySignCount id count)) shared reply :: later) =
            if id = other then count :: accepted other later else accepted other later := by
          simp only [accepted, List.filterMap_cons, accepts]
          split <;> simp_all
        rw [grown]
        rcases update_stored performed other enrolled with ⟨error, _, rfl⟩ | ⟨_, stored⟩
        · refine current.imp_right fun member => ?_
          split
          · exact List.mem_cons_of_mem _ member
          · exact member
        · rw [stored]
          split
          · exact .inr (List.mem_cons_self ..)
          · exact current

end CountersKept

/-- Passkey logins that keep to their rule and leave the rows in place. -/
def counterContract (platform : AuthPlatform) : Contract (web platform) where
  valid trace shared := CountersKept platform trace shared
  may task op trace _ := WebRule task (own task trace) op ∧ KeepsPasskeys op

theorem counterContract_lawful (tables : WebAuthTables) :
    Lawful (countersInOrder platform) (counterContract platform) (.opened tables) where
  start := .start tables
  launch task job trace shared kept _ _ :=
    kept.unaccepting (fun _ => ⟨rfl, rfl⟩) (fun _ => rfl) (fun _ _ _ _ same => by cases same)
      fun _ _ _ _ same => by cases same
  step task choice op trace shared reply after kept may granted performed := by
    obtain ⟨rule, keeps⟩ := may
    by_cases accepting : ∃ id count, op = .execute (.updatePasskeySignCount id count)
    · obtain ⟨id, count, rfl⟩ := accepting
      exact kept.accept rule (by simpa [countersInOrder] using granted) performed
    · have other : ∀ id count, op ≠ .execute (.updatePasskeySignCount id count) :=
        fun id count same => accepting ⟨id, count, same⟩
      refine kept.unaccepting (fun id => ?_) (perform_signCount keeps performed other)
        (fun _ _ _ _ same => by cases same; rfl) fun task id before row same => ?_
      · constructor
        · unfold accepts
          split
          next same =>
            cases same
            exact absurd rfl (other _ _)
          next => rfl
        · unfold loses
          split
          next same =>
            cases same
            exact absurd rfl (other _ _)
          next => rfl
      · cases same
        rcases @perform_execute platform _ _ _ _ _ performed with
          ⟨value, tables, answered, executed, rfl⟩ | ⟨error, failed, _⟩
        · cases answered
          simp only [WebStatement.execute, Except.ok.injEq, Prod.mk.injEq] at executed
          rw [WebAuthTables.signCount, executed.1, Option.map_some]
        · cases failed
  drift drift trace shared after kept drifted := by
    have same : after.tables = shared.tables := by
      cases drift with
      | serve lane =>
        simp only [WebShared.drift, WebShared.serve] at drifted
        repeat' split at drifted
        all_goals cases drifted
        all_goals rfl
      | tick | evictExpired => cases drifted; rfl
    exact kept.unaccepting (fun _ => ⟨rfl, rfl⟩) (fun _ => by rw [same]) (fun _ _ _ _ same => by cases same)
      fun _ _ _ _ same => by cases same
  bodies task job trace admitted fresh := by
    have obeys : @Obeys (web platform) (fun current op => WebRule task current op ∧ KeepsPasskeys op ∧ True) task Unit
        (fun _ _ => True ∧ True) (body platform job) (own task (.launched task job :: trace)) := by
      rw [own_cons rfl, own_fresh fresh]
      exact (body_conducts job).within (fun _ _ _ _ _ _ => trivial) (passkeyLogin_keepsPasskeys admitted) .always trivial
    exact obeys.safe (fun op trace shared _ rule => ⟨rule.1, rule.2.1⟩) fun _ _ _ => trivial

/-- Passkey logins whose counters come in order keep them monotone. -/
theorem passkey_counters_monotone {tables : WebAuthTables} {system : System (web platform)}
    (reached : (System.machine (web platform) (.opened tables)).Reachable (System.Meets (countersInOrder platform)) system) :
    CountersMonotone platform system :=
  have kept : CountersKept platform system.trace system.shared := ((counterContract_lawful tables).kept reached).valid
  ⟨kept.monotone.increasing, kept.monotone.neverLowered, kept.monotone.regressionRefused⟩

/-- A passkey whose last counter was five. -/
private def enrolledTables : WebAuthTables where
  password := some "secret"
  devices := [{ id := "laptop", name := "laptop", tokenHash := "token" }]
  passkeys := [{ id := "pk", deviceId := "laptop", publicKey := "key", signCount := 5 }]

private def ceremony (task : Nat) (sessionId : String) : List (Event (web samplePlatform)) :=
  [.launch (.http { route := .anyone .passkeyLoginStart }), .advance task .proceed, .advance task .proceed,
    .advance task .proceed, .advance task (.text "challenge"), .advance task (.text sessionId), .advance task .proceed]

/-- A login up to the look at the row. -/
private def untilRead (task : Nat) (sessionId credential : String) : List (Event (web samplePlatform)) :=
  [.launch (.http { route := .anyone (.passkeyLoginFinish { sessionId, credential }) }), .advance task .proceed,
    .advance task .proceed, .advance task .proceed, .advance task .proceed, .advance task .proceed]

private def afterRead (task : Nat) (id : String) : List (Event (web samplePlatform)) :=
  [.advance task .proceed, .advance task (.drawn id id), .advance task .proceed, .advance task .proceed]

private def attempted (guard : Guard (web samplePlatform)) (events : List (Event (web samplePlatform))) :
    Option (System (web samplePlatform)) :=
  let machine := System.machine (web samplePlatform) (.opened enrolledTables)
  machine.run (System.Meets guard) machine.start events

/-- Counters of seven and eight, one login after the other. -/
private def loginsInTurn : List (Event (web samplePlatform)) :=
  ceremony 0 "first" ++ ceremony 1 "second" ++ untilRead 2 "first" "counter" ++ afterRead 2 "a" ++
    untilRead 3 "second" "counters" ++ afterRead 3 "b"

theorem passkey_counters_monotone_in_turn :
    CountersMonotone samplePlatform ((attempted (countersInOrder samplePlatform) loginsInTurn).get (by decide +kernel)) :=
  passkey_counters_monotone (Machine.Reachable.start.run (Option.some_get _).symm)

/-- Counters of eight and seven, where both logins look at the row before either
writes to it. -/
private def loginsAtOnce : List (Event (web samplePlatform)) :=
  ceremony 0 "first" ++ ceremony 1 "second" ++ untilRead 2 "first" "counters" ++ untilRead 3 "second" "counter" ++
    afterRead 2 "a" ++ afterRead 3 "b"

/-- Two logins at once are both accepted, and the second lowers the stored counter. -/
theorem overlapping_logins_lower_counter :
    ∃ platform tables system, (System.machine (web platform) (.opened tables)).Reachable
      (System.Meets (passkeyLogins platform)) system ∧ ¬ CountersMonotone platform system := by
  refine ⟨samplePlatform, enrolledTables,
    (attempted (passkeyLogins samplePlatform) loginsAtOnce).get (by decide +kernel),
    Machine.Reachable.start.run (Option.some_get _).symm, fun monotone => ?_⟩
  have rising := monotone.increasing "pk"
  revert rising
  decide +kernel

end Wisphive
