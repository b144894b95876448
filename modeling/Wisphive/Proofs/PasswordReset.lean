import Wisphive.Proofs.WebRules

/-! A reset leaves no token behind that was issued on the strength of a credential from
before it. -/

namespace Wisphive
open Foundation Program WebAuth WebTrace

variable {platform : AuthPlatform} {task : Nat} {trace : WebTrace platform} {shared after : WebShared}
  {choice : WebChoice}

/-- An operation that may insert the row of a device. -/
def InsertsDevice (id tokenHash : String) : WebOp → Prop
  | .execute (.insertWebDevice other _ hash) | .execute (.trySetInitialWebPasswordAndDevice _ other _ hash) =>
    other = id ∧ hash = tokenHash
  | _ => False

/-- The same row as before, or one that was revoked in between. -/
def Descends (row old : WebDeviceRow) : Prop :=
  old.id = row.id ∧ old.tokenHash = row.tokenHash ∧ (old.revoked = true → row.revoked = true)

theorem insertWebDevice_devices {tables grown : WebAuthTables} {id name tokenHash : String}
    (inserted : tables.insertWebDevice id name tokenHash = .ok grown) :
    grown.devices = tables.devices ++ [⟨id, name, tokenHash, false⟩] ∧ grown.passkeys = tables.passkeys := by
  unfold WebAuthTables.insertWebDevice at inserted
  split at inserted
  · cases inserted
  · cases inserted
    exact ⟨rfl, rfl⟩

/-- A row was there before, or is inserted now. -/
theorem perform_device {op : WebOp} {reply : op.Reply} {row : WebDeviceRow}
    (performed : shared.perform platform choice op = some (reply, after)) (member : row ∈ after.tables.devices) :
    (∃ old ∈ shared.tables.devices, Descends row old) ∨ InsertsDevice row.id row.tokenHash op := by
  have old {tables : WebAuthTables} (same : tables.devices = shared.tables.devices) (member : row ∈ tables.devices) :
      ∃ old ∈ shared.tables.devices, Descends row old := ⟨row, same ▸ member, rfl, rfl, fun revoked => revoked⟩
  have inserted {tables grown : WebAuthTables} {id name tokenHash : String}
      (inserted : tables.insertWebDevice id name tokenHash = .ok grown) (same : tables.devices = shared.tables.devices)
      (member : row ∈ grown.devices) :
      (∃ old ∈ shared.tables.devices, Descends row old) ∨ id = row.id ∧ tokenHash = row.tokenHash := by
    rw [(insertWebDevice_devices inserted).1, same, List.mem_append, List.mem_singleton] at member
    rcases member with present | rfl
    · exact .inl ⟨row, present, rfl, rfl, fun revoked => revoked⟩
    · exact .inr ⟨rfl, rfl⟩
  cases op with
  | execute statement =>
    rcases perform_execute performed with ⟨value, tables, _, executed, rfl⟩ | ⟨error, _, rfl⟩
    · cases statement with
      | insertWebDevice id name tokenHash =>
        simp only [WebStatement.execute, Except.map] at executed
        split at executed
        · cases executed
        next grown added =>
          cases executed
          exact inserted added rfl member
      | trySetInitialWebPasswordAndDevice argon2Hash id name tokenHash =>
        simp only [WebStatement.execute, WebAuthTables.trySetInitialWebPasswordAndDevice, Except.map] at executed
        split at executed
        · cases executed
          exact .inl (old rfl member)
        · split at executed
          · cases executed
          next grown added =>
            cases executed
            exact inserted added rfl member
      | revokeActive id =>
        cases executed
        obtain ⟨earlier, present, rfl⟩ := List.mem_map.mp member
        refine .inl ⟨earlier, present, ?_⟩
        split
        · exact ⟨rfl, rfl, fun _ => rfl⟩
        · exact ⟨rfl, rfl, fun revoked => revoked⟩
      | resetWebPassword =>
        cases executed
        cases member
      | insertWebPasskey passkey =>
        simp only [WebStatement.execute, WebAuthTables.insertWebPasskey, Except.map] at executed
        repeat' split at executed
        all_goals cases executed
        next added =>
          repeat' split at added
          all_goals cases added
          exact .inl (old rfl member)
      | replaceWebPasswordHashIfCurrent expected replacement =>
        simp only [WebStatement.execute, WebAuthTables.replaceWebPasswordHashIfCurrent] at executed
        split at executed <;> cases executed <;> exact .inl (old rfl member)
      | _ =>
        cases executed
        exact .inl (old rfl member)
    · exact .inl (old rfl member)
  | _ => exact .inl (old (by rw [perform_tables (fun _ same => (by cases same)) performed]) member)

/-- Only a draw uses up ids and tokens. -/
theorem perform_drawn {op : WebOp} {reply : op.Reply} (other : op ≠ .generateDevice)
    (performed : shared.perform platform choice op = some (reply, after)) :
    after.drawn = shared.drawn ∧ after.issued = shared.issued := by
  cases op with
  | generateDevice => exact absurd rfl other
  | execute statement =>
    rcases perform_execute performed with ⟨_, _, _, _, rfl⟩ | ⟨_, _, rfl⟩ <;> exact ⟨rfl, rfl⟩
  | passwordSet =>
    simp only [WebShared.perform, WebShared.passwordSet, WebShared.markPasswordSet] at performed
    repeat' split at performed
    all_goals cases performed
    all_goals exact ⟨rfl, rfl⟩
  | forward lane line =>
    simp only [WebShared.perform] at performed
    split at performed
    · obtain ⟨unread, _, same⟩ := Option.map_eq_some_iff.mp performed
      cases same
      exact ⟨rfl, rfl⟩
    all_goals cases performed
    exact ⟨rfl, rfl⟩
  | _ =>
    simp only [WebShared.perform, WebShared.markPasswordSet, WebShared.takeChallenge] at performed
    repeat' split at performed
    all_goals cases performed
    all_goals exact ⟨rfl, rfl⟩

theorem drift_unchanged {drift : WebDrift} (drifted : shared.drift platform drift = some after) :
    after.tables = shared.tables ∧ after.drawn = shared.drawn ∧ after.issued = shared.issued := by
  cases drift with
  | serve lane =>
    simp only [WebShared.drift, WebShared.serve] at drifted
    repeat' split at drifted
    all_goals cases drifted
    all_goals exact ⟨rfl, rfl, rfl⟩
  | tick | evictExpired =>
    cases drifted
    exact ⟨rfl, rfl, rfl⟩

/-- Two draws of one id or of one token are of one task. What was drawn is used up. -/
structure DrawsKept (platform : AuthPlatform) (trace : WebTrace platform) (shared : WebShared) : Prop where
  used : ∀ task before drawn, .performed task .generateDevice before drawn ∈ trace →
    drawn.1 ∈ shared.drawn ∧ platform.sha256Hex drawn.2 ∈ shared.issued
  unique : ∀ task before drawn other earlier again, .performed task .generateDevice before drawn ∈ trace →
    .performed other .generateDevice earlier again ∈ trace →
      drawn.1 = again.1 ∨ platform.sha256Hex drawn.2 = platform.sha256Hex again.2 → task = other

namespace DrawsKept

theorem start : DrawsKept platform [] shared where
  used _ _ _ member := nomatch member
  unique _ _ _ _ _ _ member := nomatch member

/-- An entry that draws nothing. -/
theorem other (kept : DrawsKept platform trace shared) {entry : Entry (web platform)}
    (silent : ∀ task before drawn, entry ≠ .performed task .generateDevice before drawn)
    (same : after.drawn = shared.drawn ∧ after.issued = shared.issued) : DrawsKept platform (entry :: trace) after := by
  have old {task : Nat} {before : WebShared} {drawn : String × String}
      (member : .performed task .generateDevice before drawn ∈ entry :: trace) :
      .performed task .generateDevice before drawn ∈ trace :=
    (List.mem_cons.mp member).resolve_left fun newest => silent task before drawn newest.symm
  refine ⟨fun task before drawn member => ?_, fun task before drawn other earlier again member late => ?_⟩
  · rw [same.1, same.2]
    exact kept.used task before drawn (old member)
  · exact kept.unique task before drawn other earlier again (old member) (old late)

theorem step (kept : DrawsKept platform trace shared) {op : WebOp} {reply : op.Reply}
    (performed : shared.perform platform choice op = some (reply, after)) :
    DrawsKept platform (.performed task op shared reply :: trace) after := by
  by_cases draws : op = .generateDevice
  · subst draws
    simp only [WebShared.perform] at performed
    split at performed
    · split at performed
      · cases performed
      next id token fresh =>
        cases performed
        obtain ⟨newId, newToken⟩ := not_or.mp fresh
        refine ⟨fun other before drawn member => ?_, fun first before drawn second earlier again member late same => ?_⟩
        · rcases List.mem_cons.mp member with newest | old
          · cases newest
            exact ⟨List.mem_cons_self .., List.mem_cons_self ..⟩
          · have used := kept.used other before drawn old
            exact ⟨List.mem_cons_of_mem _ used.1, List.mem_cons_of_mem _ used.2⟩
        · rcases List.mem_cons.mp member with newest | old <;> rcases List.mem_cons.mp late with last | early
          · cases newest
            cases last
            rfl
          · cases newest
            have used := kept.used second earlier again early
            rcases same with sameId | sameToken
            · exact absurd used.1 (sameId ▸ newId)
            · exact absurd used.2 (sameToken ▸ newToken)
          · cases last
            have used := kept.used first before drawn old
            rcases same with sameId | sameToken
            · exact absurd used.1 (sameId ▸ newId)
            · exact absurd used.2 (sameToken ▸ newToken)
          · exact kept.unique first before drawn second earlier again old early same
    · cases performed
  · refine kept.other (fun other before drawn same => ?_) (perform_drawn draws performed)
    cases same
    exact draws rfl

end DrawsKept

/-! ### The reset -/

/-- An entry of a task that spent nothing else is its draw. -/
theorem WebTrace.Draws.drew {id tokenHash : String} (draws : Draws task id tokenHash (own task trace)) :
    ∃ before token, .performed task .generateDevice before (id, token) ∈ trace ∧ tokenHash = platform.sha256Hex token ∧
      ∀ entry ∈ trace, entry.task = some task → spends task entry = false := by
  obtain ⟨token, before, rest, newest, hashed, unspent⟩ := draws
  have member : .performed task .generateDevice before (id, token) ∈ own task trace := newest ▸ List.mem_cons_self ..
  refine ⟨before, token, (mem_own.mp member).1, hashed, fun entry present mine => ?_⟩
  have listed : entry ∈ own task trace := mem_own.mpr ⟨present, mine⟩
  rw [newest] at listed
  rcases List.mem_cons.mp listed with rfl | old
  · rfl
  · exact unspent entry old

theorem issues_entry {entry : Entry (web platform)} {tokenHash : String} (issued : issues task entry = some tokenHash) :
    ∃ id name before value, entry = .performed task (.execute (.insertWebDevice id name tokenHash)) before (.ok value) := by
  unfold issues at issued
  split at issued
  next other id name hash before value =>
    split at issued
    next mine =>
      cases issued
      exact ⟨id, name, before, value, by rw [mine]⟩
    next => cases issued
  next => cases issued

/-- No row has the hash of a token that a reset has made worthless. -/
structure ResetKept (platform : AuthPlatform) (trace : WebTrace platform) (shared : WebShared) : Prop where
  draws : DrawsKept platform trace shared
  drawn : ∀ task tokenHash, tokenHash ∈ trace.filterMap (issues task) → ∃ before drawn,
    .performed task .generateDevice before drawn ∈ trace ∧ platform.sha256Hex drawn.2 = tokenHash
  gone : ∀ task tokenHash, outdated task trace = true → tokenHash ∈ trace.filterMap (issues task) →
    ∀ row ∈ shared.tables.devices, row.tokenHash ≠ tokenHash

namespace ResetKept

/-- An entry that is no step of a request. -/
theorem aside (kept : ResetKept platform trace shared) {entry : Entry (web platform)}
    (silent : ∀ task op before reply, entry ≠ .performed task op before reply)
    (same : after.tables = shared.tables ∧ after.drawn = shared.drawn ∧ after.issued = shared.issued) :
    ResetKept platform (entry :: trace) after := by
  have none (task : Nat) : issues task entry = none := by
    unfold issues
    split
    · exact (silent _ _ _ _ rfl).elim
    · rfl
  have still : resets entry = false := by
    unfold resets
    split
    · exact (silent _ _ _ _ rfl).elim
    · rfl
  refine ⟨kept.draws.other (fun _ _ _ => silent _ _ _ _) same.2, fun task tokenHash member => ?_,
    fun task tokenHash worthless member row present => ?_⟩
  · rw [List.filterMap_cons_none (none task)] at member
    obtain ⟨before, drawn, drew, hashed⟩ := kept.drawn task tokenHash member
    exact ⟨before, drawn, List.mem_cons_of_mem _ drew, hashed⟩
  · rw [List.filterMap_cons_none (none task)] at member
    rw [outdated, still, Bool.false_and, Bool.or_false] at worthless
    exact kept.gone task tokenHash worthless member row (same.1 ▸ present)

theorem step (kept : ResetKept platform trace shared) {choice : WebChoice} {op : WebOp} {reply : op.Reply}
    (rule : WebRule task (own task trace) op) (granted : (loginsCurrent platform).grants task choice op trace shared = true)
    (performed : shared.perform platform choice op = some (reply, after)) :
    ResetKept platform (.performed task op shared reply :: trace) after := by
  refine ⟨kept.draws.step performed, fun issuer tokenHash member => ?_,
    fun issuer tokenHash worthless member row present same => ?_⟩
  · obtain ⟨entry, listed, issued⟩ := List.mem_filterMap.mp member
    rcases List.mem_cons.mp listed with rfl | old
    · obtain ⟨id, name, before, value, same⟩ := issues_entry issued
      cases same
      obtain ⟨earlier, token, drew, hashed, _⟩ := Draws.drew rule
      exact ⟨earlier, _, List.mem_cons_of_mem _ drew, hashed.symm⟩
    · obtain ⟨earlier, drawn, drew, hashed⟩ :=
        kept.drawn issuer tokenHash (List.mem_filterMap.mpr ⟨entry, old, issued⟩)
      exact ⟨earlier, drawn, List.mem_cons_of_mem _ drew, hashed⟩
  · by_cases reset : op = .execute .resetWebPassword
    · subst reset
      rcases @perform_execute platform _ _ _ _ _ performed with ⟨value, tables, _, executed, rfl⟩ | ⟨error, failed, rfl⟩
      · cases executed
        cases present
      · subst failed
        have earlier : tokenHash ∈ trace.filterMap (issues issuer) := by
          rwa [List.filterMap_cons_none rfl] at member
        rw [outdated, Bool.or_eq_true] at worthless
        exact kept.gone issuer tokenHash (worthless.resolve_right (by simp [resets])) earlier row present same
    · have still : @resets platform (.performed task op shared reply) = false := by
        unfold resets
        split
        next reset' =>
          cases reset'
          exact absurd rfl reset
        next => rfl
      rw [outdated, still, Bool.false_and, Bool.or_false] at worthless
      have earlier : tokenHash ∈ trace.filterMap (issues issuer) := by
        obtain ⟨entry, listed, issued⟩ := List.mem_filterMap.mp member
        rcases List.mem_cons.mp listed with rfl | old
        · obtain ⟨id, name, before, value, same⟩ := issues_entry issued
          cases same
          simp [loginsCurrent, worthless] at granted
        · exact List.mem_filterMap.mpr ⟨entry, old, issued⟩
      rcases @perform_device platform _ _ _ _ _ _ performed present with ⟨old, was, _, hash, _⟩ | inserts
      · exact kept.gone issuer tokenHash worthless earlier old was (hash.trans same)
      · -- A second row with the hash would need a second draw, or a second token of one task.
        have draws : Draws task row.id row.tokenHash (own task trace) := by
          cases op with
          | execute statement =>
            cases statement with
            | insertWebDevice | trySetInitialWebPasswordAndDevice =>
              obtain ⟨rfl, rfl⟩ := inserts
              exact rule
            | _ => exact inserts.elim
          | _ => exact inserts.elim
        obtain ⟨before, token, drew, hashed, unspent⟩ := draws.drew
        obtain ⟨earlierBefore, drawn, again, sameHash⟩ := kept.drawn issuer tokenHash earlier
        have mine : task = issuer := kept.draws.unique _ _ _ _ _ _ drew again
          (.inr (hashed.symm.trans (same.trans sameHash.symm)))
        subst mine
        obtain ⟨entry, listed, issued⟩ := List.mem_filterMap.mp earlier
        obtain ⟨id, name, before, value, rfl⟩ := issues_entry issued
        have spent := unspent _ listed rfl
        simp [spends] at spent

end ResetKept

def resetContract (platform : AuthPlatform) : Contract (web platform) where
  valid trace shared := ResetKept platform trace shared
  may task op trace _ := WebRule task (own task trace) op

theorem resetContract_lawful (tables : WebAuthTables) :
    Lawful (loginsCurrent platform) (resetContract platform) (.opened tables) where
  start := ⟨.start, fun _ _ member => (by cases member), fun _ _ worthless => (by cases worthless)⟩
  launch task job trace shared kept _ _ := kept.aside (fun _ _ _ _ same => by cases same) ⟨rfl, rfl, rfl⟩
  step task choice op trace shared reply after kept rule granted performed := kept.step rule granted performed
  drift drift trace shared after kept drifted :=
    kept.aside (fun _ _ _ _ same => by cases same) (drift_unchanged drifted)
  bodies task job trace _ fresh := by
    have obeys : Conducts task (fun _ _ => True) (body platform job) (own task (.launched task job :: trace)) := by
      rw [own_cons rfl, own_fresh fresh]
      exact body_conducts job
    exact obeys.safe (fun _ _ _ _ rule => rule) fun _ _ _ => trivial

/-- Where no reset comes between the look at a credential and the token, no token
outlives a reset. -/
theorem tokens_reset {tables : WebAuthTables} {system : System (web platform)}
    (reached : (System.machine (web platform) (.opened tables)).Reachable (System.Meets (loginsCurrent platform)) system) :
    TokensReset platform system := by
  have kept : ResetKept platform system.trace system.shared := ((resetContract_lawful tables).kept reached).valid
  intro task tokenHash worthless issued
  rw [WebAuthTables.valid, Option.isSome_eq_false_iff, Option.isNone_iff_eq_none]
  refine List.find?_eq_none.mpr fun row present found => ?_
  simp only [Bool.and_eq_true, decide_eq_true_eq] at found
  exact kept.gone task tokenHash worthless issued row present found.1

private def passwordTables : WebAuthTables where
  password := some "$argon2id$pw"

private def attempt (guard : Guard (web samplePlatform)) (events : List (Event (web samplePlatform))) :
    Option (System (web samplePlatform)) :=
  let machine := System.machine (web samplePlatform) (.opened passwordTables)
  machine.run (System.Meets guard) machine.start events

/-- A login with its password verified. -/
private def untilVerified (task : Nat) : List (Event (web samplePlatform)) :=
  [.launch (.http { route := .anyone (.login { password := "pw" }) }), .advance task .proceed, .advance task .proceed,
    .advance task .proceed, .advance task .proceed]

private def afterVerified (task : Nat) : List (Event (web samplePlatform)) :=
  [.advance task (.drawn "laptop" "token"), .advance task .proceed, .advance task .proceed]

private def reset (task : Nat) : List (Event (web samplePlatform)) :=
  [.launch .resetPassword, .advance task .proceed]

/-- The token of a login goes with the reset. -/
theorem tokens_reset_after_login :
    TokensReset samplePlatform ((attempt (loginsCurrent samplePlatform)
      (untilVerified 0 ++ afterVerified 0 ++ reset 1)).get (by decide +kernel)) :=
  tokens_reset (Machine.Reachable.start.run (Option.some_get _).symm)

/-- A login that verified its password before the reset gets a token that is valid
after it. -/
theorem login_outlives_reset :
    ∃ platform tables system, (System.machine (web platform) (.opened tables)).Reachable (System.Meets {}) system ∧
      ¬ TokensReset platform system := by
  refine ⟨samplePlatform, passwordTables,
    (attempt {} (untilVerified 0 ++ reset 1 ++ afterVerified 0)).get (by decide +kernel),
    Machine.Reachable.start.run (Option.some_get _).symm, fun worthless => ?_⟩
  have refused := worthless 0 "sha256:token" (by decide +kernel) (by decide +kernel)
  revert refused
  decide +kernel

end Wisphive
