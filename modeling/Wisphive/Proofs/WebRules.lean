import Wisphive.WebRuns

/-! What a request has done when it stores a counter, issues a token, or does
something for the device that it was let in for. -/

namespace Wisphive
open Foundation Program WebAuth

variable {platform : AuthPlatform} {task : Nat} {past : WebTrace platform}

section Perform
variable {shared after : WebShared} {choice : WebChoice}

/-- A statement takes effect, or fails and leaves everything as it was. -/
theorem perform_execute {statement : WebStatement} {reply : Except WebAuthError statement.Reply}
    (performed : shared.perform platform choice (.execute statement) = some (reply, after)) :
    (∃ value tables, reply = .ok value ∧ statement.execute shared.tables = .ok (value, tables) ∧
      after = { shared with tables }) ∨
    ∃ error, reply = .error error ∧ after = shared := by
  simp only [WebShared.perform, WebShared.execute] at performed
  split at performed
  · split at performed
    next value tables executed =>
      cases performed
      exact .inl ⟨value, tables, rfl, executed, rfl⟩
    next error _ =>
      cases performed
      exact .inr ⟨error, rfl, rfl⟩
  · cases performed
    exact .inr ⟨.db, rfl, rfl⟩
  · cases performed

/-- What is no statement leaves the tables alone. -/
theorem perform_tables {op : WebOp} {reply : op.Reply} (other : ∀ statement, op ≠ .execute statement)
    (performed : shared.perform platform choice op = some (reply, after)) : after.tables = shared.tables := by
  cases op with
  | execute statement => exact absurd rfl (other statement)
  | passwordSet =>
    simp only [WebShared.perform, WebShared.passwordSet, WebShared.markPasswordSet] at performed
    repeat' split at performed
    all_goals cases performed
    all_goals rfl
  | forward lane line =>
    simp only [WebShared.perform] at performed
    split at performed
    · obtain ⟨unread, _, same⟩ := Option.map_eq_some_iff.mp performed
      cases same
      rfl
    all_goals cases performed
    rfl
  | _ =>
    simp only [WebShared.perform, WebShared.markPasswordSet, WebShared.takeChallenge] at performed
    repeat' split at performed
    all_goals cases performed
    all_goals rfl

end Perform

namespace WebTrace

/-- A request that has neither issued a token nor answered. -/
def Unspent (task : Nat) (past : WebTrace platform) : Prop :=
  ∀ entry ∈ past, spends task entry = false

/-- A request that was let in as the device, and may act for it. -/
structure Bearing (task : Nat) (device : AuthedDevice) (past : WebTrace platform) : Prop where
  unspent : Unspent task past
  acting : ∃ entry ∈ past, acts task entry = true
  admitted : ∃ entry ∈ past, authenticates task device.id.text entry = true

/-- The last step drew the id and the token. -/
def Draws (task : Nat) (id tokenHash : String) (past : WebTrace platform) : Prop :=
  ∃ token before rest, past = .performed task .generateDevice before (id, token) :: rest ∧
    tokenHash = platform.sha256Hex token ∧ Unspent task rest

/-- The last step read the row that the counter was compared with. -/
def Compares (task : Nat) (id : String) (count : Nat) (past : WebTrace platform) : Prop :=
  ∃ before row rest, past = .performed task (.execute (.findWebPasskeyByCredentialId id)) before (.ok (some row)) :: rest ∧
    (count = 0 ∨ row.signCount < count)

/-- A line that stands for a command of the device. -/
def Carries (platform : AuthPlatform) (device : AuthedDevice) (line : String) : Prop :=
  ∃ command, platform.encode command = some line ∧ command.deviceId = some device.id

/-- What a request has done before an operation. -/
def WebRule (task : Nat) (past : WebTrace platform) : WebOp → Prop
  | .execute (.updatePasskeySignCount id count) => Compares task id count past
  | .execute (.insertWebDevice id _ tokenHash)
  | .execute (.trySetInitialWebPasswordAndDevice _ id _ tokenHash) => Draws task id tokenHash past
  | .execute (.insertWebPasskey row) => ∃ device, Bearing task device past ∧ row.deviceId = device.id.text
  | .forward _ line => ∃ device, Bearing task device past ∧ Carries platform device line
  | .connect => ∃ device, Bearing task device past
  | _ => True

/-- Operations that every request may ask for at any time, and that end nothing. -/
def Plain : WebOp → Prop
  | .execute (.updatePasskeySignCount ..) | .execute (.insertWebDevice ..)
  | .execute (.trySetInitialWebPasswordAndDevice ..) | .execute (.insertWebPasskey _) | .forward .. | .connect
  | .respond _ => False
  | _ => True

theorem WebRule.of_plain {op : WebOp} (plain : Plain op) : WebRule task past op := by
  cases op with
  | execute statement => cases statement <;> trivial
  | forward | connect => exact plain.elim
  | _ => trivial

theorem spends_plain {op : WebOp} (plain : Plain op) (before : WebShared) (reply : op.Reply) :
    @spends platform task (.performed task op before reply) = false := by
  cases op with
  | execute statement => cases statement <;> first | rfl | exact plain.elim
  | respond => exact plain.elim
  | _ => rfl

theorem Unspent.cons {entry : Entry (web platform)} (unspent : Unspent task past) (kept : spends task entry = false) :
    Unspent task (entry :: past) := by
  intro other member
  rcases List.mem_cons.mp member with rfl | old
  · exact kept
  · exact unspent other old

theorem Bearing.cons {device : AuthedDevice} {entry : Entry (web platform)} (bearing : Bearing task device past)
    (kept : spends task entry = false) : Bearing task device (entry :: past) where
  unspent := bearing.unspent.cons kept
  acting := bearing.acting.imp fun _ found => ⟨List.mem_cons_of_mem _ found.1, found.2⟩
  admitted := bearing.admitted.imp fun _ found => ⟨List.mem_cons_of_mem _ found.1, found.2⟩

end WebTrace

open WebTrace

/-- A request that keeps to its rule, whatever comes of it. -/
abbrev Conducts (task : Nat) {α : Type} (post : α → WebTrace platform → Prop) (program : Web α)
    (past : WebTrace platform) : Prop :=
  @Obeys (web platform) (WebRule task) task α post program past

/-- Any reply may come. -/
abbrev Asks {α : Type} (allowed : WebOp → Prop) (program : Web α) : Prop :=
  program.Uses allowed (fun _ _ => True) fun _ => True

theorem conducts_plain {α : Type} {program : Web α} (uses : Asks Plain program) (unspent : Unspent task past) :
    Conducts task (fun _ current => Unspent task current) program past := by
  have kept : Conducts task (fun _ current => True ∧ Unspent task current) program past :=
    .of_knowing (fun _ _ _ _ _ _ => trivial) uses
      (fun op before reply _ plain unspent => unspent.cons (spends_plain plain before reply))
      (fun _ _ plain _ => WebRule.of_plain plain) unspent
  exact kept.mono fun _ _ => And.right

section Plain

theorem verifyAndMigrate_plain (password phc : String) : Asks Plain (verifyAndMigrateWebPassword password phc) := by
  refine uses_ask trivial fun outcome _ => ?_
  match outcome with
  | none | some .failed | some .ok => trivial
  | some .okRehashNeeded =>
    refine uses_ask trivial fun replacement _ => ?_
    cases replacement with
    | none => trivial
    | some replacement => exact uses_ask trivial fun _ _ => trivial

/-- The start of a ceremony asks for no statement. -/
theorem passkeyLoginStart_uses {allowed : WebOp → Prop} (rpId : Option String)
    (permits : ∀ op, Plain op → (∀ statement, op ≠ .execute statement) → allowed op) :
    Asks allowed (postPasskeyLoginStart rpId) := by
  refine uses_ask (permits _ trivial fun _ same => (by cases same)) fun slot _ => ?_
  cases slot with
  | error retryAfter => trivial
  | ok _ =>
    cases rpId with
    | none => trivial
    | some rpId =>
      refine uses_ask (permits _ trivial fun _ same => (by cases same)) fun resolved _ => ?_
      cases resolved with
      | false => trivial
      | true =>
        refine uses_ask (permits _ trivial fun _ same => (by cases same)) fun state _ => ?_
        cases state with
        | none => trivial
        | some state => exact uses_ask (permits _ trivial fun _ same => (by cases same)) fun _ _ => trivial

theorem passkeyRegisterStart_plain (rpId : Option String) (device : AuthedDevice) :
    Asks Plain (postPasskeyRegisterStart platform rpId device) := by
  cases rpId with
  | none => trivial
  | some rpId =>
    unfold postPasskeyRegisterStart
    simp only
    split
    · trivial
    · refine uses_ask trivial fun resolved _ => ?_
      cases resolved with
      | false => trivial
      | true =>
        refine uses_ask trivial fun existing _ => ?_
        cases existing with
        | error error => trivial
        | ok rows =>
          refine uses_ask trivial fun state _ => ?_
          cases state with
          | none => trivial
          | some state => exact uses_ask trivial fun _ _ => trivial

theorem revokeWebDevice_plain (id : String) : Asks Plain (revokeWebDevice id) := by
  refine uses_ask trivial fun revoked _ => ?_
  match revoked with
  | .error error | .ok true => trivial
  | .ok false =>
    refine uses_ask trivial fun present _ => ?_
    cases present <;> trivial

theorem postAuthLogout_plain (device : AuthedDevice) : Asks Plain (postAuthLogout device) := by
  refine uses_bind (revokeWebDevice_plain device.id.text) fun revoked _ => ?_
  cases revoked <;> trivial

theorem verifyRevokePassword_plain (password : String) : Asks Plain (verifyRevokePassword password) := by
  refine uses_ask trivial fun slot _ => ?_
  cases slot with
  | error retryAfter => trivial
  | ok _ =>
    simp only
    split
    · trivial
    · refine uses_ask trivial fun phc _ => ?_
      match phc with
      | .error error | .ok none => trivial
      | .ok (some phc) => exact verifyAndMigrate_plain password phc

theorem postRevokeDevice_plain (actor : AuthedDevice) (targetId password : String) :
    Asks Plain (postRevokeDevice actor targetId password) := by
  refine uses_ask trivial fun listed _ => ?_
  cases listed with
  | error error => trivial
  | ok devices =>
    simp only
    split
    · trivial
    · split
      · trivial
      · refine uses_bind (verifyRevokePassword_plain password) fun verified _ => ?_
        cases verified with
        | false => trivial
        | true =>
          refine uses_ask trivial fun slot _ => ?_
          cases slot with
          | error retryAfter => trivial
          | ok _ =>
            refine uses_bind (revokeWebDevice_plain targetId) fun revoked _ => ?_
            cases revoked <;> trivial

end Plain

section Logins

theorem recordDevice_conducts (unspent : Unspent task past) (name : String → String) (enrolling : Option String) :
    Conducts task (fun _ _ => True) (recordDevice platform name enrolling) past := by
  refine obeys_ask trivial fun _ before drawn _ _ => ?_
  obtain ⟨id, token⟩ := drawn
  refine obeys_ask ⟨token, before, past, rfl, rfl, unspent⟩ fun _ _ inserted _ _ => ?_
  cases inserted <;> trivial

theorem postAuthLogin_conducts (unspent : Unspent task past) (body : LoginRequest) :
    Conducts task (fun _ _ => True) (postAuthLogin platform body) past := by
  refine obeys_ask trivial fun _ before slot _ _ => ?_
  have unspent : Unspent task (.performed task .beginAttempt before slot :: _) := unspent.cons rfl
  cases slot with
  | error retryAfter => trivial
  | ok _ =>
    simp only
    split
    · trivial
    · refine obeys_ask trivial fun _ before found _ _ => ?_
      have unspent : Unspent task (.performed task (.execute .getWebPasswordHash) before found :: _) := unspent.cons rfl
      match found with
      | .error error | .ok none => trivial
      | .ok (some phc) =>
        refine obeys_bind (conducts_plain (verifyAndMigrate_plain body.password phc) unspent)
          fun verified _ unspent => ?_
        cases verified with
        | false => trivial
        | true => exact recordDevice_conducts unspent _ _

theorem postAuthSetPassword_conducts (unspent : Unspent task past) (body : LoginRequest) :
    Conducts task (fun _ _ => True) (postAuthSetPassword platform body) past := by
  refine obeys_ask trivial fun _ before slot _ _ => ?_
  have unspent : Unspent task (.performed task .beginAttempt before slot :: _) := unspent.cons rfl
  cases slot with
  | error retryAfter => trivial
  | ok _ =>
    simp only
    split
    · trivial
    · split
      · trivial
      · refine obeys_ask trivial fun _ before hashed _ _ => ?_
        have unspent : Unspent task (.performed task (.hashPassword body.password) before hashed :: _) := unspent.cons rfl
        cases hashed with
        | none => trivial
        | some phc =>
          refine obeys_ask trivial fun _ before drawn _ _ => ?_
          obtain ⟨id, token⟩ := drawn
          refine obeys_ask ⟨token, before, _, rfl, rfl, unspent⟩ fun _ _ created _ _ => ?_
          match created with
          | .error error | .ok false => trivial
          | .ok true => exact obeys_ask trivial fun _ _ _ _ _ => trivial

/-- The counter is compared with the row that was read in the step before. -/
theorem acceptAssertion_conducts {before : WebShared} {body : PasskeyFinishRequest} {stored : WebPasskeyRow}
    (unspent : Unspent task past) (state : String) :
    Conducts task (fun _ _ => True) (acceptAssertion platform body state stored)
      (.performed task (.execute (.findWebPasskeyByCredentialId (platform.credentialId body.credential))) before
        (.ok (some stored)) :: past) := by
  unfold acceptAssertion
  split
  · trivial
  · split
    · trivial
    next newCounter _ =>
      split
      · trivial
      next passes =>
        have compared : newCounter = 0 ∨ stored.signCount < newCounter := by omega
        refine obeys_ask ⟨before, stored, past, rfl, compared⟩ fun _ _ updated _ _ => ?_
        exact recordDevice_conducts ((unspent.cons rfl).cons rfl) _ _

theorem postPasskeyLoginFinish_conducts (unspent : Unspent task past) (rpId : Option String)
    (body : PasskeyFinishRequest) :
    Conducts task (fun _ _ => True) (postPasskeyLoginFinish platform rpId body) past := by
  refine obeys_ask trivial fun _ before slot _ _ => ?_
  have unspent : Unspent task (.performed task .beginAttempt before slot :: _) := unspent.cons rfl
  cases slot with
  | error retryAfter => trivial
  | ok _ =>
    cases rpId with
    | none => trivial
    | some rpId =>
      refine obeys_ask trivial fun _ before taken _ _ => ?_
      have unspent : Unspent task (.performed task (.takeChallenge body.sessionId) before taken :: _) := unspent.cons rfl
      match taken with
      | none | some (.register ..) => trivial
      | some (.login state) =>
        refine obeys_ask trivial fun _ before resolved _ _ => ?_
        have unspent : Unspent task (.performed task (.webauthnFor rpId) before resolved :: _) := unspent.cons rfl
        cases resolved with
        | false => trivial
        | true =>
          refine obeys_ask trivial fun _ _ found _ _ => ?_
          match found with
          | .error error | .ok none => trivial
          | .ok (some stored) => exact acceptAssertion_conducts unspent state

theorem handlePublic_conducts (unspent : Unspent task past) (incoming : WebRequest) (route : PublicRoute) :
    Conducts task (fun _ _ => True) (handlePublic platform incoming route) past := by
  cases route with
  | setPassword body => exact postAuthSetPassword_conducts unspent body
  | login body => exact postAuthLogin_conducts unspent body
  | passkeyLoginStart => exact (conducts_plain (passkeyLoginStart_uses incoming.rpId fun _ plain _ => plain) unspent).mono fun _ _ _ => trivial
  | passkeyLoginFinish body => exact postPasskeyLoginFinish_conducts unspent incoming.rpId body

end Logins

section Devices
variable {device : AuthedDevice}

theorem signalMarkDeviceFresh_conducts (bearing : Bearing task device past) :
    Conducts task (fun _ _ => True) (signalMarkDeviceFresh platform device) past := by
  refine obeys_ask ⟨device, bearing⟩ fun _ _ connected _ _ => ?_
  cases connected with
  | none => trivial
  | some lane =>
    simp only
    split
    · trivial
    next line encoded =>
      refine obeys_ask ⟨device, bearing.cons rfl, _, encoded, rfl⟩ fun _ _ sent _ _ => ?_
      cases sent with
      | false => trivial
      | true => exact obeys_ask trivial fun _ _ _ _ _ => trivial

/-- A verification leaves the request as it was let in. -/
theorem bearing_plain {α : Type} {program : Web α} (uses : Asks Plain program) (bearing : Bearing task device past) :
    Conducts task (fun _ current => Bearing task device current) program past := by
  have kept : Conducts task (fun _ current => True ∧ Bearing task device current) program past :=
    .of_knowing (fun _ _ _ _ _ _ => trivial) uses
      (fun op before reply _ plain bearing => bearing.cons (spends_plain plain before reply))
      (fun _ _ plain _ => WebRule.of_plain plain) bearing
  exact kept.mono fun _ _ => And.right

theorem postAuthReauth_conducts (bearing : Bearing task device past) (password : String) :
    Conducts task (fun _ _ => True) (postAuthReauth platform device password) past := by
  refine obeys_ask trivial fun _ before slot _ _ => ?_
  have bearing : Bearing task device (.performed task .beginAttempt before slot :: _) := bearing.cons rfl
  cases slot with
  | error retryAfter => trivial
  | ok _ =>
    simp only
    split
    · trivial
    · refine obeys_ask trivial fun _ before found _ _ => ?_
      have bearing : Bearing task device (.performed task (.execute .getWebPasswordHash) before found :: _) := bearing.cons rfl
      match found with
      | .error error | .ok none => trivial
      | .ok (some phc) =>
        refine obeys_bind (bearing_plain (verifyAndMigrate_plain password phc) bearing) fun verified _ bearing => ?_
        cases verified with
        | false => trivial
        | true =>
          refine obeys_bind (signalMarkDeviceFresh_conducts bearing) fun signalled _ _ => ?_
          cases signalled <;> trivial

theorem postPasskeyRegisterFinish_conducts (bearing : Bearing task device past) (rpId : Option String)
    (body : PasskeyFinishRequest) :
    Conducts task (fun _ _ => True) (postPasskeyRegisterFinish platform rpId device body) past := by
  cases rpId with
  | none => trivial
  | some rpId =>
    refine obeys_ask trivial fun _ before taken _ _ => ?_
    have bearing : Bearing task device (.performed task (.takeChallenge body.sessionId) before taken :: _) := bearing.cons rfl
    match taken with
    | none | some (.login _) => trivial
    | some (.register state stashDeviceId stashRpId) =>
      simp only
      split
      · trivial
      · split
        · trivial
        · refine obeys_ask trivial fun _ before resolved _ _ => ?_
          have bearing : Bearing task device (.performed task (.webauthnFor rpId) before resolved :: _) := bearing.cons rfl
          cases resolved with
          | false => trivial
          | true =>
            simp only [if_true]
            split
            · trivial
            next id publicKey _ =>
              refine obeys_ask ⟨device, bearing, rfl⟩ fun _ _ inserted _ _ => ?_
              cases inserted <;> trivial

/-- Every frame that is forwarded is a command of the bridge's device. -/
theorem relay_conducts (bearing : Bearing task device past) (lane : Nat) (frames : List Frame) :
    Conducts task (fun _ _ => True) (relay platform device lane frames) past := by
  induction frames generalizing past with
  | nil => trivial
  | cons frame rest ih =>
    cases frame with
    | close => trivial
    | control => exact ih bearing
    | text raw =>
      simp only [relay]
      split
      · refine obeys_ask trivial fun _ _ sent _ _ => ?_
        cases sent with
        | false => trivial
        | true => exact ih (bearing.cons rfl)
      next line rewrapped =>
        have carries : Carries platform device line := by
          unfold rewrapWithDevice at rewrapped
          split at rewrapped
          · cases rewrapped
          · exact ⟨_, rewrapped, rfl⟩
        refine obeys_ask ⟨device, bearing, carries⟩ fun _ _ sent _ _ => ?_
        cases sent with
        | false => trivial
        | true => exact ih (bearing.cons rfl)

theorem bridge_conducts (bearing : Bearing task device past) (frames : List Frame) :
    Conducts task (fun _ _ => True) (bridge platform device frames) past := by
  refine obeys_ask ⟨device, bearing⟩ fun _ _ connected _ _ => ?_
  cases connected with
  | none => trivial
  | some lane => exact obeys_bind (relay_conducts (bearing.cons rfl) lane frames) fun _ _ _ => trivial

end Devices

theorem handleDevice_conducts {device : AuthedDevice} (unspent : Unspent task past) (incoming : WebRequest)
    (route : DeviceRoute)
    (acting : actsForDevice (.http { incoming with route := .bearer none route }) = true →
      ∃ entry ∈ past, acts task entry = true)
    (admitted : ∃ entry ∈ past, authenticates task device.id.text entry = true) :
    Conducts task (fun _ _ => True) (handleDevice platform incoming device route) past := by
  cases route with
  | reauth password => exact postAuthReauth_conducts ⟨unspent, acting rfl, admitted⟩ password
  | logout => exact (conducts_plain (postAuthLogout_plain device) unspent).mono fun _ _ _ => trivial
  | revokeDevice targetId password =>
    exact (conducts_plain (postRevokeDevice_plain device targetId password) unspent).mono fun _ _ _ => trivial
  | passkeyRegisterStart =>
    exact (conducts_plain (passkeyRegisterStart_plain incoming.rpId device) unspent).mono fun _ _ _ => trivial
  | passkeyRegisterFinish body =>
    exact postPasskeyRegisterFinish_conducts ⟨unspent, acting rfl, admitted⟩ incoming.rpId body
  | ws frames => exact bridge_conducts ⟨unspent, acting rfl, admitted⟩ frames

theorem authenticated_conducts (unspent : Unspent task past) (incoming : WebRequest)
    (launched : .launched task (.http incoming) ∈ past) :
    Conducts task (fun _ _ => True) (authenticated platform incoming incoming.route) past := by
  obtain ⟨route, rpId, hostAllowed, originAllowed⟩ := incoming
  match route with
  | .anyone route => exact handlePublic_conducts unspent _ route
  | .bearer none route => trivial
  | .bearer (some token) route =>
    refine obeys_ask trivial fun _ before found _ _ => ?_
    match found with
    | .error error | .ok none => trivial
    | .ok (some row) =>
      apply handleDevice_conducts (unspent.cons rfl)
      · intro acting
        refine ⟨_, List.mem_cons_of_mem _ launched, ?_⟩
        cases route <;> simp_all [acts, actsForDevice]
      · exact ⟨_, List.mem_cons_self .., by simp [authenticates]⟩

theorem securityMiddleware_conducts (unspent : Unspent task past) (incoming : WebRequest)
    (launched : .launched task (.http incoming) ∈ past) :
    Conducts task (fun _ _ => True) (securityMiddleware platform incoming) past := by
  unfold securityMiddleware
  split
  · trivial
  · split
    · trivial
    · split
      · exact authenticated_conducts unspent incoming launched
      · refine obeys_ask trivial fun _ _ known _ _ => ?_
        match known with
        | .error error | .ok false => trivial
        | .ok true => exact authenticated_conducts (unspent.cons rfl) incoming (List.mem_cons_of_mem _ launched)

/-- Every job of the web process and of the terminal keeps to the rule. -/
theorem body_conducts (job : WebJob) :
    @Conducts platform task Unit (fun _ _ => True) (body platform job) [.launched task job] := by
  have unspent : @Unspent platform task [.launched task job] := by
    intro entry member
    rw [List.mem_singleton.mp member]
    rfl
  cases job with
  | http incoming =>
    refine obeys_bind (securityMiddleware_conducts unspent incoming (List.mem_cons_self ..)) fun _ _ _ => ?_
    exact obeys_ask trivial fun _ _ _ _ _ => trivial
  | setPassword password =>
    refine obeys_ask trivial fun _ _ hashed _ _ => ?_
    cases hashed with
    | none => trivial
    | some phc => exact obeys_ask trivial fun _ _ _ _ _ => trivial
  | resetPassword => exact obeys_ask trivial fun _ _ _ _ _ => trivial
  | devicesRevoke id =>
    refine obeys_bind ((conducts_plain (revokeWebDevice_plain id) unspent).mono fun _ _ _ => trivial) fun _ _ _ => ?_
    trivial

section Sample

def phoneLine : String := "\x7b\"type\":\"list_agents\",\"device_id\":\"phone\"\x7d"

def phoneFrame : String := "\x7b\"type\":\"list_agents\"\x7d"

/-- One command of one device, one password, and an authenticator that sends the length
of its assertion as the counter. -/
def samplePlatform : AuthPlatform where
  encode command := if command = { body := .listAgents, deviceId := some ⟨"phone"⟩ } then some phoneLine else none
  decode line :=
    if line = phoneLine then some { body := .listAgents, deviceId := some ⟨"phone"⟩ }
    else if line = phoneFrame then some { body := .listAgents }
    else none
  verifyPassword password phc := password = "pw" && phc = "$argon2id$pw"
  belowFloor _ := false
  hashPassword _ password := some ("$argon2id$" ++ password)
  sha256Hex token := "sha256:" ++ token
  credentialId _ := "pk"
  wellFormedPasskey _ := true
  finishAuthentication credential _ _ := some credential.length
  finishRegistration _ _ := some ("pk", "key")

theorem samplePlatform_faithful : samplePlatform.Faithful := by
  have again {command again : ClientCommand} {line : String} (encoded : samplePlatform.encode command = some line)
      (decoded : samplePlatform.decode line = some again) : again = command := by
    simp only [samplePlatform] at encoded
    split at encoded
    next same =>
      cases encoded
      simp only [samplePlatform, if_true, Option.some.injEq] at decoded
      exact decoded.symm.trans same.symm
    next => cases encoded
  exact ⟨fun encoded decoded => by rw [again encoded decoded], fun encoded decoded => by rw [again encoded decoded]⟩

end Sample
end Wisphive
