import Wisphive.Proofs.PasswordReset

/-! A device that is quiet when it is revoked can do nothing any more. -/

namespace Wisphive
open Foundation Program WebAuth WebTrace

variable {platform : AuthPlatform} {task : Nat} {trace : WebTrace platform} {shared after : WebShared}
  {choice : WebChoice} {tables : WebAuthTables} {device : String}

section Registry
variable {registry : ReauthRegistry}

theorem isFresh_eq_true {deviceId : DeviceId} {now : Instant} :
    (registry.isFresh deviceId now).1 = true ↔ ∃ stamp, registry.inner deviceId = some stamp ∧ now - stamp < registry.ttl := by
  refine ⟨ReauthRegistry.isFresh_of_true, fun ⟨stamp, found, recent⟩ => ?_⟩
  simp [ReauthRegistry.isFresh, found, recent]

/-- What is not fresh does not become so with time. -/
theorem stale_later {deviceId : DeviceId} {now later : Instant} (stale : (registry.isFresh deviceId now).1 = false)
    (passed : now ≤ later) : (registry.isFresh deviceId later).1 = false := by
  rw [Bool.eq_false_iff] at stale ⊢
  intro fresh
  obtain ⟨stamp, found, recent⟩ := isFresh_eq_true.mp fresh
  exact stale (isFresh_eq_true.mpr ⟨stamp, found, Nat.lt_of_le_of_lt (Nat.sub_le_sub_right passed stamp) recent⟩)

/-- Nor does it when another device enters its password. -/
theorem stale_touch {deviceId other : DeviceId} {now : Instant} (stale : (registry.isFresh deviceId now).1 = false)
    (differ : deviceId ≠ other) : ((registry.touch other now).isFresh deviceId now).1 = false := by
  rw [Bool.eq_false_iff] at stale ⊢
  intro fresh
  obtain ⟨stamp, found, recent⟩ := isFresh_eq_true.mp fresh
  rcases ReauthRegistry.touch_inner found with ⟨same, _⟩ | old
  · exact differ same
  · exact stale (isFresh_eq_true.mpr ⟨stamp, old, recent⟩)

end Registry

section Perform

/-- A passkey was there before, or is enrolled now. -/
theorem perform_passkey {op : WebOp} {reply : op.Reply} {row : WebPasskeyRow}
    (performed : shared.perform platform choice op = some (reply, after)) (member : row ∈ after.tables.passkeys) :
    (∃ old ∈ shared.tables.passkeys, old.deviceId = row.deviceId) ∨ op = .execute (.insertWebPasskey row) := by
  have old {tables : WebAuthTables} (same : tables.passkeys = shared.tables.passkeys) (member : row ∈ tables.passkeys) :
      ∃ old ∈ shared.tables.passkeys, old.deviceId = row.deviceId := ⟨row, same ▸ member, rfl⟩
  cases op with
  | execute statement =>
    rcases perform_execute performed with ⟨value, tables, _, executed, rfl⟩ | ⟨error, _, rfl⟩
    · cases statement with
      | insertWebDevice id name tokenHash =>
        simp only [WebStatement.execute, Except.map] at executed
        split at executed
        · cases executed
        next grown added =>
          cases executed
          exact .inl (old (insertWebDevice_devices added).2 member)
      | trySetInitialWebPasswordAndDevice argon2Hash id name tokenHash =>
        simp only [WebStatement.execute, WebAuthTables.trySetInitialWebPasswordAndDevice, Except.map] at executed
        split at executed
        · cases executed
          exact .inl (old rfl member)
        · split at executed
          · cases executed
          next grown added =>
            cases executed
            exact .inl (old (insertWebDevice_devices added).2 member)
      | insertWebPasskey passkey =>
        simp only [WebStatement.execute, WebAuthTables.insertWebPasskey, Except.map] at executed
        repeat' split at executed
        all_goals cases executed
        next added =>
          repeat' split at added
          all_goals cases added
          rcases List.mem_append.mp member with present | enrolled
          · exact .inl (old rfl present)
          · rw [List.mem_singleton.mp enrolled]
            exact .inr rfl
      | updatePasskeySignCount id count =>
        cases executed
        obtain ⟨earlier, present, rfl⟩ := List.mem_map.mp member
        refine .inl ⟨earlier, present, ?_⟩
        split <;> rfl
      | resetWebPassword =>
        cases executed
        cases member
      | replaceWebPasswordHashIfCurrent expected replacement =>
        simp only [WebStatement.execute, WebAuthTables.replaceWebPasswordHashIfCurrent] at executed
        split at executed <;> cases executed <;> exact .inl (old rfl member)
      | _ =>
        cases executed
        exact .inl (old rfl member)
    · exact .inl (old rfl member)
  | _ => exact .inl (old (by rw [perform_tables (fun _ same => (by cases same)) performed]) member)

/-- A line on its way was there before, or is forwarded now. The registry and the clock
are the daemon's. -/
theorem perform_lanes {op : WebOp} {reply : op.Reply}
    (performed : shared.perform platform choice op = some (reply, after)) :
    (∀ unread ∈ after.lanes, ∀ line ∈ unread, (∃ old ∈ shared.lanes, line ∈ old) ∨ ∃ lane, op = .forward lane line) ∧
      after.reauth = shared.reauth ∧ after.instant = shared.instant := by
  have old (same : after.lanes = shared.lanes) :
      ∀ unread ∈ after.lanes, ∀ line ∈ unread, (∃ old ∈ shared.lanes, line ∈ old) ∨ ∃ lane, op = .forward lane line :=
    fun unread member line listed => .inl ⟨unread, same ▸ member, listed⟩
  cases op with
  | execute statement =>
    rcases perform_execute performed with ⟨_, _, _, _, rfl⟩ | ⟨_, _, rfl⟩ <;> exact ⟨old rfl, rfl, rfl⟩
  | passwordSet =>
    simp only [WebShared.perform, WebShared.passwordSet, WebShared.markPasswordSet] at performed
    repeat' split at performed
    all_goals cases performed
    all_goals exact ⟨old rfl, rfl, rfl⟩
  | connect =>
    simp only [WebShared.perform] at performed
    split at performed
    · cases performed
      refine ⟨fun unread member line listed => ?_, rfl, rfl⟩
      rcases List.mem_append.mp member with present | new
      · exact .inl ⟨unread, present, listed⟩
      · rw [List.mem_singleton.mp new] at listed
        cases listed
    · cases performed
      exact ⟨old rfl, rfl, rfl⟩
    · cases performed
  | forward lane sent =>
    simp only [WebShared.perform] at performed
    split at performed
    · obtain ⟨earlier, found, same⟩ := Option.map_eq_some_iff.mp performed
      cases same
      refine ⟨fun unread member line listed => ?_, rfl, rfl⟩
      rcases List.mem_or_eq_of_mem_set member with present | rfl
      · exact .inl ⟨unread, present, listed⟩
      · rcases List.mem_append.mp listed with was | new
        · exact .inl ⟨earlier, List.mem_of_getElem? found, was⟩
        · rw [List.mem_singleton.mp new]
          exact .inr ⟨lane, rfl⟩
    · cases performed
      exact ⟨old rfl, rfl, rfl⟩
    · cases performed
  | _ =>
    simp only [WebShared.perform, WebShared.markPasswordSet, WebShared.takeChallenge] at performed
    repeat' split at performed
    all_goals cases performed
    all_goals exact ⟨old rfl, rfl, rfl⟩

end Perform

namespace WebTrace

/-- A task that has issued a token or answered. -/
def Spent (task : Nat) (trace : WebTrace platform) : Prop :=
  ∃ entry ∈ trace, spends task entry = true

theorem Spent.cons {entry : Entry (web platform)} (spent : Spent task trace) : Spent task (entry :: trace) :=
  spent.imp fun _ found => ⟨List.mem_cons_of_mem _ found.1, found.2⟩

/-- An entry that ends a task's business is its own. -/
theorem spends_task {entry : Entry (web platform)} (spent : spends task entry = true) : entry.task = some task := by
  unfold spends at spent
  split at spent
  case h_4 => cases spent
  all_goals simpa [Entry.task] using spent

theorem not_spent (unspent : Unspent task (own task trace)) : ¬ Spent task trace := by
  rintro ⟨entry, member, spent⟩
  rw [unspent entry (mem_own.mpr ⟨member, spends_task spent⟩)] at spent
  cases spent

end WebTrace

/-- The ids that a process has found in its tables, and those that it inserted. -/
def Originates (platform : AuthPlatform) (tables : WebAuthTables) (id : String) (trace : WebTrace platform) : Prop :=
  id ∈ tables.devices.map (·.id) ∨
    ∃ task before token, .performed task .generateDevice before (id, token) ∈ trace ∧ Spent task trace

/-- What a revoked device has left. -/
structure DeviceGone (platform : AuthPlatform) (tables : WebAuthTables) (device : String) (trace : WebTrace platform)
    (shared : WebShared) : Prop where
  origin : Originates platform tables device trace
  inactive : ∀ row ∈ shared.tables.devices, row.id = device → row.revoked = true
  passkeys : ∀ row ∈ shared.tables.passkeys, row.deviceId ≠ device
  idle : ∀ task, (∃ entry ∈ trace, authenticates task device entry = true) → (∃ entry ∈ trace, acts task entry = true) →
    Spent task trace
  ended : ∀ task, (∃ entry ∈ trace, readsPasskeyOf task device entry = true) → Spent task trace
  unread : ∀ unread ∈ shared.lanes, ∀ line ∈ unread, WebShared.marks platform line ≠ some { text := device }
  stale : (shared.reauth.isFresh { text := device } shared.instant).1 = false

structure RevocationKept (platform : AuthPlatform) (tables : WebAuthTables) (trace : WebTrace platform)
    (shared : WebShared) : Prop where
  draws : DrawsKept platform trace shared
  reserved : ∀ id ∈ tables.devices.map (·.id), id ∈ shared.drawn
  foreign : ∀ task before drawn, .performed task .generateDevice before drawn ∈ trace →
    drawn.1 ∉ tables.devices.map (·.id)
  rows : ∀ row ∈ shared.tables.devices, Originates platform tables row.id trace
  gone : ∀ device entry, entry ∈ trace → device ∈ revokes entry → DeviceGone platform tables device trace shared
  silent : ∀ later revocation earlier device, trace = later ++ revocation :: earlier → device ∈ revokes revocation →
    ∀ entry ∈ later, exercises device trace entry = false

theorem Originates.cons {id : String} {entry : Entry (web platform)} (origin : Originates platform tables id trace) :
    Originates platform tables id (entry :: trace) := by
  rcases origin with initial | ⟨task, before, token, drew, spent⟩
  · exact .inl initial
  · exact .inr ⟨task, before, token, List.mem_cons_of_mem _ drew, spent.cons⟩

/-- Where a device was let in or one of its passkeys was read. -/
def Invokes (device : String) (entry : Entry (web platform)) : Prop :=
  ∃ task, authenticates task device entry = true ∨ readsPasskeyOf task device entry = true

/-- An entry that does not invoke the device leaves the others as they are. -/
theorem exercises_cons {entry other : Entry (web platform)} (silent : ¬ Invokes device entry) :
    exercises device (entry :: trace) other = exercises device trace other := by
  have unauthenticated (task : Nat) : authenticates task device entry = false :=
    Bool.eq_false_iff.mpr fun invoked => silent ⟨task, .inl invoked⟩
  have unread (task : Nat) : readsPasskeyOf task device entry = false :=
    Bool.eq_false_iff.mpr fun invoked => silent ⟨task, .inr invoked⟩
  unfold exercises
  split <;> simp only [List.any_cons, unauthenticated, unread, Bool.false_or]

namespace DeviceGone

/-- What a step of nobody leaves to a revoked device. -/
theorem cons (gone : DeviceGone platform tables device trace shared) {entry : Entry (web platform)}
    (silent : ¬ Invokes device entry)
    (started : ∀ task, acts task entry = true → ∀ other ∈ trace, other.task ≠ some task)
    (inactive : ∀ row ∈ after.tables.devices, row.id = device → row.revoked = true)
    (passkeys : ∀ row ∈ after.tables.passkeys, row.deviceId ≠ device)
    (unread : ∀ unread ∈ after.lanes, ∀ line ∈ unread, WebShared.marks platform line ≠ some { text := device })
    (stale : (after.reauth.isFresh { text := device } after.instant).1 = false) :
    DeviceGone platform tables device (entry :: trace) after where
  origin := gone.origin.cons
  inactive := inactive
  passkeys := passkeys
  idle task := by
    rintro ⟨admitted, member, lets⟩ ⟨acting, listed, acted⟩
    have earlier : admitted ∈ trace := by
      rcases List.mem_cons.mp member with rfl | old
      · exact absurd ⟨task, .inl lets⟩ silent
      · exact old
    have mine : admitted.task = some task := by
      unfold authenticates at lets
      split at lets
      next => simpa [Entry.task] using (Bool.and_eq_true_iff.mp lets).1
      next => cases lets
    rcases List.mem_cons.mp listed with rfl | old
    · exact absurd mine (started task acted admitted earlier)
    · exact (gone.idle task ⟨admitted, earlier, lets⟩ ⟨acting, old, acted⟩).cons
  ended task := by
    rintro ⟨reading, member, reads⟩
    rcases List.mem_cons.mp member with rfl | old
    · exact absurd ⟨task, .inr reads⟩ silent
    · exact (gone.ended task ⟨reading, old, reads⟩).cons
  unread := unread
  stale := stale

/-- A request that still acts for a device is not of a revoked one. -/
theorem not_bearing (gone : DeviceGone platform tables device trace shared) {bearer : AuthedDevice}
    (bearing : Bearing task bearer (own task trace)) : bearer.id.text ≠ device := by
  rintro rfl
  obtain ⟨acting, acted, acts⟩ := bearing.acting
  obtain ⟨admitted, member, lets⟩ := bearing.admitted
  exact not_spent bearing.unspent
    (gone.idle task ⟨admitted, (mem_own.mp member).1, lets⟩ ⟨acting, (mem_own.mp acted).1, acts⟩)

/-- Neither its token nor one of its passkeys is found. -/
theorem not_invoked (gone : DeviceGone platform tables device trace shared) {op : WebOp} {reply : op.Reply}
    (performed : shared.perform platform choice op = some (reply, after)) :
    ¬ @Invokes platform device (.performed task op shared reply) := by
  rintro ⟨reader, lets | reads⟩
  · unfold authenticates at lets
    split at lets
    next other tokenHash before row same =>
      cases same
      rcases @perform_execute platform _ _ _ _ _ performed with ⟨value, tables, answered, executed, _⟩ | ⟨error, failed, _⟩
      · cases answered
        simp only [WebStatement.execute, Except.ok.injEq, Prod.mk.injEq] at executed
        have active := List.find?_some executed.1
        simp only [Bool.and_eq_true, decide_eq_true_eq, Bool.not_eq_true'] at active lets
        rw [gone.inactive row (List.mem_of_find?_eq_some executed.1) lets.2] at active
        cases active.2
      · cases failed
    next => cases lets
  · unfold readsPasskeyOf at reads
    split at reads
    next other id before row same =>
      cases same
      rcases @perform_execute platform _ _ _ _ _ performed with ⟨value, tables, answered, executed, _⟩ | ⟨error, failed, _⟩
      · cases answered
        simp only [WebStatement.execute, Except.ok.injEq, Prod.mk.injEq] at executed
        simp only [Bool.and_eq_true, decide_eq_true_eq] at reads
        exact gone.passkeys row (List.mem_of_find?_eq_some executed.1) reads.2
      · cases failed
    next => cases reads

end DeviceGone

/-- A line of a device names no other. -/
theorem carries_device (faithful : platform.Faithful) {bearer : AuthedDevice} {line : String} {again : ClientCommand}
    (carries : Carries platform bearer line) (decoded : platform.decode line = some again) :
    again.deviceId = some bearer.id := by
  obtain ⟨command, encoded, named⟩ := carries
  rw [faithful.device encoded decoded, named]

theorem carries_marks (faithful : platform.Faithful) {bearer : AuthedDevice} {line : String} {deviceId : DeviceId}
    (carries : Carries platform bearer line) (marked : WebShared.marks platform line = some deviceId) :
    deviceId = bearer.id := by
  unfold WebShared.marks at marked
  split at marked
  next decoded =>
    have named := carries_device faithful carries decoded
    exact Option.some.inj (marked.symm.trans named)
  next => cases marked

theorem carries_names (faithful : platform.Faithful) {bearer : AuthedDevice} {line : String}
    (carries : Carries platform bearer line) (named : namesDevice platform line device = true) :
    bearer.id.text = device := by
  unfold namesDevice at named
  cases found : (platform.decode line).bind (·.deviceId) with
  | none =>
    rw [found] at named
    cases named
  | some deviceId =>
    obtain ⟨again, decoded, names⟩ := Option.bind_eq_some_iff.mp found
    rw [carries_device faithful carries decoded] at names
    cases names
    rw [found] at named
    simpa using named

namespace RevocationKept

theorem start (tables : WebAuthTables) : RevocationKept platform tables [] (.opened tables) where
  draws := .start
  reserved _ member := member
  foreign _ _ _ member := nomatch member
  rows row member := .inl (List.mem_map_of_mem member)
  gone _ _ member := nomatch member
  silent later _ _ _ split := by cases later <;> cases split

/-- The id of a revoked device is not drawn for another one. -/
theorem not_drawn (kept : RevocationKept platform tables trace shared) (origin : Originates platform tables device trace)
    {id tokenHash : String} (draws : Draws task id tokenHash (own task trace)) : id ≠ device := by
  rintro rfl
  obtain ⟨before, token, drew, _, unspent⟩ := draws.drew
  rcases origin with initial | ⟨other, earlier, again, drawn, entry, member, spent⟩
  · exact kept.foreign task before _ drew initial
  · have mine : task = other := kept.draws.unique _ _ _ _ _ _ drew drawn (.inl rfl)
    subst mine
    rw [unspent entry member (spends_task spent)] at spent
    cases spent

/-- What inserts a row drew its id, and has issued its token then. -/
theorem inserted_draws {op : WebOp} {row : WebDeviceRow} (rule : WebRule task (own task trace) op)
    (inserts : InsertsDevice row.id row.tokenHash op) : Draws task row.id row.tokenHash (own task trace) := by
  cases op with
  | execute statement =>
    cases statement with
    | insertWebDevice | trySetInitialWebPasswordAndDevice =>
      obtain ⟨rfl, rfl⟩ := inserts
      exact rule
    | _ => exact inserts.elim
  | _ => exact inserts.elim

end RevocationKept

/-- A step of a request leaves a revoked device what it was. -/
theorem DeviceGone.perform (faithful : platform.Faithful) (kept : RevocationKept platform tables trace shared)
    (gone : DeviceGone platform tables device trace shared) {op : WebOp} {reply : op.Reply}
    (rule : WebRule task (own task trace) op) (performed : shared.perform platform choice op = some (reply, after)) :
    DeviceGone platform tables device (.performed task op shared reply :: trace) after := by
  obtain ⟨lanes, reauth, instant⟩ := @perform_lanes platform _ _ _ _ _ performed
  refine gone.cons (gone.not_invoked performed) (fun _ acted => by cases acted) (fun row member same => ?_)
    (fun row member => ?_) (fun unread member line listed => ?_) (by rw [reauth, instant]; exact gone.stale)
  · rcases @perform_device platform _ _ _ _ _ _ performed member with ⟨old, was, id, _, stays⟩ | inserts
    · exact stays (gone.inactive old was (id.trans same))
    · exact absurd same (kept.not_drawn gone.origin (RevocationKept.inserted_draws rule inserts))
  · rcases @perform_passkey platform _ _ _ _ _ _ performed member with ⟨old, was, same⟩ | rfl
    · exact same ▸ gone.passkeys old was
    · obtain ⟨bearer, bearing, same⟩ := rule
      exact same ▸ gone.not_bearing bearing
  · rcases lanes unread member line listed with ⟨old, was, earlier⟩ | ⟨lane, rfl⟩
    · exact gone.unread old was line earlier
    · obtain ⟨bearer, bearing, carries⟩ := rule
      intro marked
      exact gone.not_bearing bearing (by rw [← carries_marks faithful carries marked])

/-- A statement that was answered did not fail. -/
theorem perform_ok {statement : WebStatement} {value : statement.Reply}
    (performed : shared.perform platform choice (.execute statement) = some (.ok value, after)) : choice = .proceed := by
  cases choice with
  | proceed => rfl
  | fail => cases performed
  | retryAfter | drawn | text => cases performed

/-- A quiet device has nothing under way. -/
theorem quiet_idle (quiet : quietDevice platform device trace shared = true) (task : Nat)
    (invokes : (∃ entry ∈ trace, authenticates task device entry = true) ∧ (∃ entry ∈ trace, acts task entry = true) ∨
      ∃ entry ∈ trace, readsPasskeyOf task device entry = true) : Spent task trace := by
  simp only [quietDevice, Bool.and_eq_true, Bool.not_eq_true'] at quiet
  by_contra active
  have unspent : trace.any (spends task) = false := by
    refine Bool.eq_false_iff.mpr fun spent => active ?_
    obtain ⟨entry, member, spends⟩ := List.any_eq_true.mp spent
    exact ⟨entry, member, spends⟩
  refine Bool.eq_false_iff.mp quiet.2 (List.any_eq_true.mpr ?_)
  rcases invokes with ⟨⟨entry, member, lets⟩, ⟨acting, listed, acted⟩⟩ | ⟨entry, member, reads⟩
  · have mine : entry.task = some task := by
      unfold authenticates at lets
      split at lets
      next => simpa [Entry.task] using (Bool.and_eq_true_iff.mp lets).1
      next => cases lets
    have going : trace.any (acts task) = true := List.any_eq_true.mpr ⟨acting, listed, acted⟩
    exact ⟨entry, member, by simp [mine, lets, going, unspent]⟩
  · have mine : entry.task = some task := by
      unfold readsPasskeyOf at reads
      split at reads
      next => simpa [Entry.task] using (Bool.and_eq_true_iff.mp reads).1
      next => cases reads
    exact ⟨entry, member, by simp [mine, reads, unspent]⟩

/-- A device that is quiet, without a row that lets it in and without passkeys. -/
theorem DeviceGone.of_quiet (quiet : quietDevice platform device trace shared = true)
    (origin : Originates platform tables device trace) {removed : WebAuthTables}
    (inactive : ∀ row ∈ removed.devices, row.id = device → row.revoked = true)
    (passkeys : ∀ row ∈ removed.passkeys, row.deviceId ≠ device) :
    DeviceGone platform tables device trace { shared with tables := removed } where
  origin := origin
  inactive := inactive
  passkeys := passkeys
  idle task admitted acting := quiet_idle quiet task (.inl ⟨admitted, acting⟩)
  ended task reading := quiet_idle quiet task (.inr reading)
  unread unread member line listed := by
    simp only [quietDevice, Bool.and_eq_true, List.all_eq_true, decide_eq_true_eq] at quiet
    exact quiet.1.2 unread member line listed
  stale := by
    simp only [quietDevice, Bool.and_eq_true, Bool.not_eq_true'] at quiet
    exact quiet.1.1

/-- A revocation by a request or a reset, of a device that is quiet. -/
theorem DeviceGone.revoke (kept : RevocationKept platform tables trace shared) {op : WebOp} {reply : op.Reply}
    (performed : shared.perform platform choice op = some (reply, after))
    (listed : device ∈ @revokes platform (.performed task op shared reply))
    (granted : (revokedQuietly platform).grants task choice op trace shared = true) :
    DeviceGone platform tables device (.performed task op shared reply :: trace) after := by
  have settled {entry : Entry (web platform)} {removed : WebAuthTables} (silent : ¬ Invokes device entry)
      (idle : ∀ task, acts task entry = false)
      (gone : DeviceGone platform tables device trace { shared with tables := removed }) :
      DeviceGone platform tables device (entry :: trace) { shared with tables := removed } :=
    gone.cons silent (fun task acted => absurd (idle task) (by rw [acted]; decide)) gone.inactive gone.passkeys
      gone.unread gone.stale
  unfold revokes at listed
  split at listed
  next other id before same =>
    cases same
    obtain rfl := List.mem_singleton.mp listed
    have proceeds := @perform_ok platform _ _ _ _ _ performed
    rcases @perform_execute platform _ _ _ _ _ performed with ⟨value, removed, answered, executed, rfl⟩ | ⟨error, failed, _⟩
    · simp only [WebStatement.execute, Except.ok.injEq] at executed
      have active : (shared.tables.revokeActive device).1 = true := by
        rw [executed]
        exact (Except.ok.inj answered).symm
      simp only [revokedQuietly, proceeds, active, ne_eq, not_true_eq_false, decide_false, Bool.not_true,
        Bool.false_or, Bool.and_eq_true, List.all_eq_true, decide_eq_true_eq] at granted
      obtain ⟨row, present, mine⟩ := List.any_eq_true.mp active
      simp only [Bool.and_eq_true, decide_eq_true_eq] at mine
      obtain rfl : (shared.tables.revokeActive device).2 = removed := by rw [executed]
      refine settled ?_ (fun _ => rfl) (.of_quiet granted.1 (mine.1 ▸ kept.rows row present) (fun row member same => ?_)
        granted.2)
      · rintro ⟨reader, lets | reads⟩
        · cases lets
        · cases reads
      · obtain ⟨old, was, rfl⟩ := List.mem_map.mp member
        split
        next => rfl
        next differ =>
          rw [if_neg differ] at same
          exact absurd same differ
    · cases failed
  next other before value same =>
    cases same
    have proceeds := @perform_ok platform _ _ _ _ _ performed
    rcases @perform_execute platform _ _ _ _ _ performed with ⟨_, removed, _, executed, rfl⟩ | ⟨error, failed, _⟩
    · simp only [WebStatement.execute, Except.ok.injEq, Prod.mk.injEq] at executed
      obtain rfl := executed.2
      simp only [revokedQuietly, proceeds, ne_eq, not_true_eq_false, decide_false, Bool.false_or,
        List.all_eq_true] at granted
      obtain ⟨row, present, rfl⟩ := List.mem_map.mp listed
      refine settled ?_ (fun _ => rfl) (.of_quiet (granted row present) (kept.rows row present)
        (fun row member _ => by cases member) fun row member => by cases member)
      rintro ⟨reader, lets | reads⟩
      · cases lets
      · cases reads
    · cases failed
  next => cases listed

namespace RevocationKept

/-- An entry that is no step of a request: a launch, or time and the daemon. -/
theorem aside (kept : RevocationKept platform tables trace shared) {entry : Entry (web platform)}
    (silent : ∀ task op before reply, entry ≠ .performed task op before reply)
    (started : ∀ task, acts task entry = true → ∀ other ∈ trace, other.task ≠ some task)
    (same : after.tables = shared.tables ∧ after.drawn = shared.drawn ∧ after.issued = shared.issued)
    (daemon : ∀ device, DeviceGone platform tables device trace shared →
      (∀ unread ∈ after.lanes, ∀ line ∈ unread, WebShared.marks platform line ≠ some { text := device }) ∧
        (after.reauth.isFresh { text := device } after.instant).1 = false) :
    RevocationKept platform tables (entry :: trace) after := by
  have uninvoked (device : String) : ¬ Invokes device entry := by
    rintro ⟨reader, lets | reads⟩
    · unfold authenticates at lets
      split at lets
      · exact silent _ _ _ _ rfl
      · cases lets
    · unfold readsPasskeyOf at reads
      split at reads
      · exact silent _ _ _ _ rfl
      · cases reads
  have unrevoked : revokes entry = [] := by
    unfold revokes
    split
    · exact (silent _ _ _ _ rfl).elim
    · exact (silent _ _ _ _ rfl).elim
    · rfl
  have quiet (device : String) (current : WebTrace platform) : exercises device current entry = false := by
    unfold exercises
    split
    case h_5 => rfl
    all_goals exact (silent _ _ _ _ rfl).elim
  refine ⟨kept.draws.other (fun _ _ _ => silent _ _ _ _) same.2, fun id member => ?_, fun task before drawn member => ?_,
    fun row member => ?_, fun device revocation member listed => ?_,
    fun later revocation earlier device split listed other member => ?_⟩
  · rw [same.2.1]
    exact kept.reserved id member
  · exact kept.foreign task before drawn ((List.mem_cons.mp member).resolve_left fun newest => silent _ _ _ _ newest.symm)
  · exact (kept.rows row (same.1 ▸ member)).cons
  · rcases List.mem_cons.mp member with rfl | old
    · rw [unrevoked] at listed
      cases listed
    · have gone := kept.gone device revocation old listed
      obtain ⟨unread, stale⟩ := daemon device gone
      exact gone.cons (uninvoked device) started (same.1 ▸ gone.inactive) (same.1 ▸ gone.passkeys) unread stale
  · cases later with
    | nil => cases member
    | cons newest later =>
      cases split
      rw [exercises_cons (uninvoked device)]
      rcases List.mem_cons.mp member with rfl | old
      · exact quiet device _
      · exact kept.silent later revocation earlier device rfl listed other old

/-- What a request does is on the strength of no revoked device. -/
theorem unexercised (faithful : platform.Faithful)
    (gone : DeviceGone platform tables device trace shared) {op : WebOp} {reply : op.Reply}
    (rule : WebRule task (own task trace) op) (performed : shared.perform platform choice op = some (reply, after)) :
    exercises device trace (.performed task op shared reply) = false := by
  have uninvoked : ¬ @Invokes platform device (.performed task op shared reply) := gone.not_invoked performed
  refine Bool.eq_false_iff.mpr fun exercised => ?_
  unfold exercises at exercised
  split at exercised
  next other lane line before value same =>
    cases same
    obtain ⟨bearer, bearing, carries⟩ := rule
    exact gone.not_bearing bearing (carries_names faithful carries exercised)
  next other tokenHash before row same =>
    cases same
    exact uninvoked ⟨task, .inl (by simpa [authenticates] using exercised)⟩
  next other before value same =>
    cases same
    obtain ⟨bearer, bearing⟩ := rule
    obtain ⟨acting, acted, acts⟩ := bearing.acting
    obtain ⟨admitted, member, lets⟩ := List.any_eq_true.mp exercised
    exact not_spent bearing.unspent (gone.idle task ⟨admitted, member, lets⟩ ⟨acting, (mem_own.mp acted).1, acts⟩)
  next other id name tokenHash before value same =>
    cases same
    obtain ⟨_, _, _, _, unspent⟩ := WebTrace.Draws.drew rule
    obtain ⟨reading, member, reads⟩ := List.any_eq_true.mp exercised
    obtain ⟨entry, listed, spent⟩ := gone.ended task ⟨reading, member, reads⟩
    rw [unspent entry listed (spends_task spent)] at spent
    cases spent
  next => cases exercised

theorem step (kept : RevocationKept platform tables trace shared) (faithful : platform.Faithful) {op : WebOp}
    {reply : op.Reply} (rule : WebRule task (own task trace) op)
    (granted : (revokedQuietly platform).grants task choice op trace shared = true)
    (performed : shared.perform platform choice op = some (reply, after)) :
    RevocationKept platform tables (.performed task op shared reply :: trace) after := by
  have still {device : String} {revocation : Entry (web platform)} (member : revocation ∈ trace)
      (listed : device ∈ revokes revocation) : DeviceGone platform tables device trace shared :=
    kept.gone device revocation member listed
  refine ⟨kept.draws.step performed, fun id member => ?_, fun drawer before drawn member => ?_, fun row member => ?_,
    fun device revocation member listed => ?_, fun later revocation earlier device split listed other member => ?_⟩
  · by_cases draws : op = .generateDevice
    · subst draws
      simp only [WebShared.perform] at performed
      split at performed
      · split at performed
        · cases performed
        · cases performed
          exact List.mem_cons_of_mem _ (kept.reserved id member)
      · cases performed
    · rw [(perform_drawn draws performed).1]
      exact kept.reserved id member
  · rcases List.mem_cons.mp member with newest | old
    · cases newest
      simp only [WebShared.perform] at performed
      split at performed
      · split at performed
        · cases performed
        next fresh =>
          cases performed
          exact fun initial => fresh (.inl (kept.reserved _ initial))
      · cases performed
    · exact kept.foreign drawer before drawn old
  · rcases @perform_device platform _ _ _ _ _ _ performed member with ⟨old, was, id, _⟩ | inserts
    · exact id ▸ (kept.rows old was).cons
    · obtain ⟨before, token, drew, _⟩ := (inserted_draws rule inserts).drew
      refine .inr ⟨task, before, token, List.mem_cons_of_mem _ drew, _, List.mem_cons_self .., ?_⟩
      cases op with
      | execute statement => cases statement <;> first | exact inserts.elim | simp [spends]
      | _ => exact inserts.elim
  · rcases List.mem_cons.mp member with rfl | old
    · exact DeviceGone.revoke kept performed listed granted
    · exact (still old listed).perform faithful kept rule performed
  · cases later with
    | nil => cases member
    | cons newest later =>
      cases split
      have gone := still (List.mem_append_right _ (List.mem_cons_self ..)) listed
      rw [exercises_cons (gone.not_invoked performed)]
      rcases List.mem_cons.mp member with rfl | old
      · exact unexercised faithful gone rule performed
      · exact kept.silent later revocation earlier device rfl listed other old

end RevocationKept

def revocationContract (platform : AuthPlatform) (tables : WebAuthTables) : Contract (web platform) where
  valid trace shared := RevocationKept platform tables trace shared
  may task op trace _ := WebRule task (own task trace) op

/-- The daemon makes no revoked device fresh. -/
theorem drift_stale {drift : WebDrift} (drifted : shared.drift platform drift = some after)
    (gone : DeviceGone platform tables device trace shared) :
    (∀ unread ∈ after.lanes, ∀ line ∈ unread, WebShared.marks platform line ≠ some { text := device }) ∧
      (after.reauth.isFresh { text := device } after.instant).1 = false := by
  cases drift with
  | tick elapsed =>
    cases drifted
    exact ⟨gone.unread, stale_later gone.stale (Nat.le_add_right ..)⟩
  | evictExpired =>
    cases drifted
    exact ⟨gone.unread, gone.stale⟩
  | serve lane =>
    simp only [WebShared.drift, WebShared.serve] at drifted
    split at drifted
    next line rest found =>
      have queued := List.mem_of_getElem? found
      split at drifted
      · cases drifted
        refine ⟨fun unread member other listed => ?_, gone.stale⟩
        rcases List.mem_or_eq_of_mem_set member with present | rfl
        · exact gone.unread unread present other listed
        · cases listed
      · cases drifted
        refine ⟨fun unread member other listed => ?_, ?_⟩
        · rcases List.mem_or_eq_of_mem_set member with present | rfl
          · exact gone.unread unread present other listed
          · exact gone.unread _ queued other (List.mem_cons_of_mem _ listed)
        · simp only
          split
          next marked found =>
            refine stale_touch gone.stale fun same => ?_
            exact gone.unread _ queued line (List.mem_cons_self ..) (same ▸ found)
          next => exact gone.stale
    next => cases drifted

theorem revocationContract_lawful (faithful : platform.Faithful) (tables : WebAuthTables) :
    Lawful (revokedQuietly platform) (revocationContract platform tables) (.opened tables) where
  start := .start tables
  launch task job trace shared kept _ fresh := by
    refine kept.aside (fun _ _ _ _ same => by cases same) (fun other acted => ?_) ⟨rfl, rfl, rfl⟩
      fun _ gone => ⟨gone.unread, gone.stale⟩
    simp only [acts, Bool.and_eq_true, decide_eq_true_eq] at acted
    exact acted.1 ▸ fresh
  step task choice op trace shared reply after kept rule granted performed :=
    RevocationKept.step kept faithful rule granted performed
  drift drift trace shared after kept drifted :=
    kept.aside (fun _ _ _ _ same => by cases same) (fun _ acted => by cases acted) (drift_unchanged drifted)
      fun _ gone => drift_stale drifted gone
  bodies task job trace _ fresh := by
    have obeys : Conducts task (fun _ _ => True) (body platform job) (own task (.launched task job :: trace)) := by
      rw [own_cons rfl, own_fresh fresh]
      exact body_conducts job
    exact obeys.safe (fun _ _ _ _ rule => rule) fun _ _ _ => trivial

/-- Where devices are revoked while they are quiet, no revoked device is fresh, and
nothing is done on the strength of it. -/
theorem revocation_effective {tables : WebAuthTables} {system : System (web platform)} (faithful : platform.Faithful)
    (reached : (System.machine (web platform) (.opened tables)).Reachable (System.Meets (revokedQuietly platform)) system) :
    RevocationEffective platform system := by
  have kept : RevocationKept platform tables system.trace system.shared :=
    ((revocationContract_lawful faithful tables).kept reached).valid
  intro later revocation earlier device split listed
  have member : revocation ∈ system.trace := split ▸ List.mem_append_right _ (List.mem_cons_self ..)
  exact ⟨(kept.gone device revocation member listed).stale, kept.silent later revocation earlier device split listed⟩

private def phoneTables : WebAuthTables where
  password := some "$argon2id$pw"
  devices := [{ id := "phone", name := "phone", tokenHash := "sha256:phone" }]

private def phoneRun (guard : Guard (web samplePlatform)) (events : List (Event (web samplePlatform))) :
    Option (System (web samplePlatform)) :=
  let machine := System.machine (web samplePlatform) (.opened phoneTables)
  machine.run (System.Meets guard) machine.start events

/-- A socket for the token of the phone. -/
private def socket (task : Nat) : List (Event (web samplePlatform)) :=
  [.launch (.http { route := .bearer (some "phone") (.ws [.text phoneFrame]) }), .advance task .proceed,
    .advance task .proceed, .advance task .proceed]

private def revokePhone (task : Nat) : List (Event (web samplePlatform)) :=
  [.launch (.devicesRevoke "phone"), .advance task .proceed]

/-- The socket is closed before the phone is revoked, and no other one is opened. -/
theorem revocation_effective_closed :
    RevocationEffective samplePlatform ((phoneRun (revokedQuietly samplePlatform)
      (socket 0 ++ [.advance 0 .proceed, .advance 0 .proceed] ++ revokePhone 1 ++
        [.launch (.http { route := .bearer (some "phone") .logout }), .advance 2 .proceed, .advance 2 .proceed])).get
      (by decide +kernel)) :=
  revocation_effective samplePlatform_faithful (Machine.Reachable.start.run (Option.some_get _).symm)

/-- A frame on a socket that was opened before the phone was revoked. -/
private def lateFrame : System (web samplePlatform) :=
  (phoneRun {} (socket 0 ++ revokePhone 1 ++ [.advance 0 .proceed])).get (by decide +kernel)

private theorem lateFrame_long : 1 < lateFrame.trace.length := by decide +kernel

/-- An open socket still forwards the frames of a phone that was revoked. -/
theorem open_socket_outlives_revocation :
    ∃ platform tables system, platform.Faithful ∧
      (System.machine (web platform) (.opened tables)).Reachable (System.Meets {}) system ∧
      ¬ RevocationEffective platform system := by
  refine ⟨samplePlatform, phoneTables, lateFrame, samplePlatform_faithful,
    Machine.Reachable.start.run (Option.some_get _).symm, fun effective => ?_⟩
  have split := (List.take_append_drop 1 lateFrame.trace).symm
  rw [List.drop_eq_getElem_cons lateFrame_long] at split
  have silent := (effective _ _ _ "phone" split (by decide +kernel)).2
  have none := List.all_eq_true.mpr fun entry member => congrArg not (silent entry member)
  revert none
  decide +kernel

end Wisphive
