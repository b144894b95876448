import Wisphive.Foundation.Rules
import Wisphive.WebHandlers

/-! Runs of the web process: any number of requests and of commands in a terminal,
one operation at a time, over the shared tables and the lines on their way to the
daemon. -/

namespace Wisphive
open Foundation

structure WebShared where
  tables : WebAuthTables := {}
  passwordSetUntil : Option Nat := none
  challenges : List (String × ChallengeState × Instant) := []
  drawn : List String := []
  issued : List String := []
  lanes : List (List String) := []
  reauth : ReauthRegistry := {}
  instant : Instant := 0

/-- What is left to the outside. -/
inductive WebChoice where
  | proceed
  | fail
  | retryAfter (seconds : Nat)
  | drawn (id token : String)
  | text (random : String)
  deriving DecidableEq, Repr

/-- Five minutes. -/
def challengeTtl : Nat := 300 * 1000000000

/-- Five seconds. -/
def passwordSetCacheTtlMs : Nat := 5000

namespace WebShared

/-- The tables that a process finds. Their ids and tokens are not drawn again. -/
def opened (tables : WebAuthTables) : WebShared :=
  { tables, drawn := tables.devices.map (·.id), issued := tables.devices.map (·.tokenHash) }

def nowMs (shared : WebShared) : Nat := shared.instant / 1000000

def markPasswordSet (shared : WebShared) : WebShared :=
  { shared with passwordSetUntil := some (shared.nowMs + passwordSetCacheTtlMs) }

/-- A password that was found lately is not looked up again. -/
def passwordSet (shared : WebShared) : WebChoice → Option (Except WebAuthError Bool × WebShared)
  | .proceed =>
    if shared.passwordSetUntil.any (shared.nowMs < ·) then some (.ok true, shared)
    else if shared.tables.password.isSome then some (.ok true, shared.markPasswordSet)
    else some (.ok false, { shared with passwordSetUntil := none })
  | .fail => if shared.passwordSetUntil.any (shared.nowMs < ·) then none else some (.error .db, shared)
  | _ => none

def execute (shared : WebShared) (statement : WebStatement) :
    WebChoice → Option (Except WebAuthError statement.Reply × WebShared)
  | .proceed =>
    match statement.execute shared.tables with
    | .ok (reply, tables) => some (.ok reply, { shared with tables })
    | .error error => some (.error error, shared)
  | .fail => some (.error .db, shared)
  | _ => none

/-- An expired ceremony is gone as well. -/
def takeChallenge (shared : WebShared) (sessionId : String) : Option ChallengeState × WebShared :=
  ((shared.challenges.find? (·.1 = sessionId)).bind fun (_, state, expiresAt) =>
      if expiresAt ≤ shared.instant then none else some state,
    { shared with challenges := shared.challenges.filter (·.1 ≠ sessionId) })

def perform (platform : AuthPlatform) (choice : WebChoice) : (op : WebOp) → WebShared → Option (op.Reply × WebShared)
  | .beginAttempt, shared | .checkRevokeLimiter _, shared =>
    match choice with
    | .proceed => some (.ok (), shared)
    | .retryAfter seconds => some (.error seconds, shared)
    | _ => none
  | .passwordSet, shared => shared.passwordSet choice
  | .markPasswordSet, shared => some ((), shared.markPasswordSet)
  | .execute statement, shared => shared.execute statement choice
  | .verifyPassword password phc, shared =>
    match choice with
    | .proceed => some (some (platform.verifyPasswordWithMigration password phc), shared)
    | .fail => some (none, shared)
    | _ => none
  | .hashPassword password, shared =>
    match choice with
    | .text salt => some (platform.hashPassword salt password, shared)
    | .fail => some (none, shared)
    | _ => none
  | .generateDevice, shared =>
    match choice with
    | .drawn id token =>
      if id ∈ shared.drawn ∨ platform.sha256Hex token ∈ shared.issued then none
      else some ((id, token),
        { shared with drawn := id :: shared.drawn, issued := platform.sha256Hex token :: shared.issued })
    | _ => none
  | .insertChallenge state, shared =>
    match choice with
    | .text sessionId =>
      if shared.challenges.any (·.1 = sessionId) then none
      else some (sessionId,
        { shared with challenges := shared.challenges ++ [(sessionId, state, shared.instant + challengeTtl)] })
    | _ => none
  | .takeChallenge sessionId, shared => some (shared.takeChallenge sessionId)
  | .webauthnFor _, shared | .send _, shared =>
    match choice with
    | .proceed => some (true, shared)
    | .fail => some (false, shared)
    | _ => none
  | .startCeremony, shared =>
    match choice with
    | .text state => some (some state, shared)
    | .fail => some (none, shared)
    | _ => none
  | .connect, shared =>
    match choice with
    | .proceed => some (some shared.lanes.length, { shared with lanes := shared.lanes ++ [[]] })
    | .fail => some (none, shared)
    | _ => none
  | .forward lane line, shared =>
    match choice with
    | .proceed =>
      shared.lanes[lane]?.map fun unread => (true, { shared with lanes := shared.lanes.set lane (unread ++ [line]) })
    | .fail => some (false, shared)
    | _ => none
  | .awaitAck lane, shared =>
    match choice with
    | .proceed => if shared.lanes[lane]? = some [] then some (true, shared) else none
    | .fail => some (false, shared)
    | _ => none
  | .respond _, shared => some ((), shared)

/-- The device that a line marks as fresh. -/
def marks (platform : AuthPlatform) (line : String) : Option DeviceId :=
  match platform.decode line with
  | some { body := .markDeviceFresh, deviceId, .. } => deviceId
  | _ => none

/-- The daemon reads the next line of a connection. -/
def serve (platform : AuthPlatform) (shared : WebShared) (lane : Nat) : Option WebShared :=
  match shared.lanes[lane]? with
  | some (line :: rest) =>
    if maxLineBytes < line.utf8ByteSize then some { shared with lanes := shared.lanes.set lane [] }
    else
      some { shared with
        lanes := shared.lanes.set lane rest
        reauth := match marks platform line with
          | some device => shared.reauth.touch device shared.instant
          | none => shared.reauth }
  | _ => none

end WebShared

/-- What happens beside the requests. -/
inductive WebDrift where
  | tick (elapsed : Nat)
  | serve (lane : Nat)
  | evictExpired
  deriving DecidableEq, Repr

def WebShared.drift (platform : AuthPlatform) (shared : WebShared) : WebDrift → Option WebShared
  | .tick elapsed => some { shared with instant := shared.instant + elapsed }
  | .serve lane => shared.serve platform lane
  | .evictExpired =>
    some { shared with challenges := shared.challenges.filter fun (_, _, expiresAt) => shared.instant < expiresAt }

/-- A request of a browser, or a command in a terminal. -/
inductive WebJob where
  | http (request : WebRequest)
  | setPassword (password : String)
  | resetPassword
  | devicesRevoke (id : String)
  deriving DecidableEq, Repr

namespace WebAuth

def answer (handler : Web WebResponse) : Web Unit := do
  request (.respond (← handler))

def persistPassword (password : String) : Web Unit := do
  match ← request (.hashPassword password) with
  | none => return ()
  | some phc =>
    let _ ← execute (.setWebPassword phc)

def body (platform : AuthPlatform) : WebJob → Web Unit
  | .http incoming => answer (securityMiddleware platform incoming)
  | .setPassword password => persistPassword password
  | .resetPassword => do
    let _ ← execute .resetWebPassword
  | .devicesRevoke id => do
    let _ ← revokeWebDevice id

end WebAuth

/-- The web process, with what it shares with the daemon and the terminal. -/
@[reducible] def web (platform : AuthPlatform) : World where
  Op := WebOp
  Reply := WebOp.Reply
  Shared := WebShared
  Job := WebJob
  Choice := WebChoice
  Drift := WebDrift
  body := WebAuth.body platform
  perform := WebShared.perform platform
  drift drift shared := shared.drift platform drift

abbrev WebTrace (platform : AuthPlatform) := History (web platform)

/-! ### What a run shows of the credentials -/

namespace WebTrace
variable {platform : AuthPlatform}

/-- An assertion that is accepted, with its counter, whether or not the update of the
row succeeds. -/
def accepts (id : String) : Entry (web platform) → Option Nat
  | .performed _ (.execute (.updatePasskeySignCount other count)) _ _ => if other = id then some count else none
  | _ => none

/-- An assertion that is accepted and whose counter is not stored. -/
def loses (id : String) : Entry (web platform) → Option Nat
  | .performed _ (.execute (.updatePasskeySignCount other count)) _ (.error _) => if other = id then some count else none
  | _ => none

/-- A task reads the row of a passkey. -/
def readsRow (task : Nat) (id : String) : Entry (web platform) → Bool
  | .performed other (.execute (.findWebPasskeyByCredentialId found)) _ (.ok (some _)) => other = task && found = id
  | _ => false

/-- The counters of accepted assertions that the row as the task read it does not show:
those since then, and those that were never stored. -/
def unseen (task : Nat) (id : String) (trace : WebTrace platform) : List Nat :=
  (trace.takeWhile fun entry => !readsRow task id entry).filterMap (accepts id) ++ trace.filterMap (loses id)

/-- A task reads a credential to check a login against it. -/
def readsCredential (task : Nat) : Entry (web platform) → Bool
  | .performed other (.execute .getWebPasswordHash) _ (.ok (some _))
  | .performed other (.execute (.findWebPasskeyByCredentialId _)) _ (.ok (some _)) => other = task
  | _ => false

def resets : Entry (web platform) → Bool
  | .performed _ (.execute .resetWebPassword) _ (.ok _) => true
  | _ => false

/-- A reset has committed since the task read a credential. -/
def outdated (task : Nat) : WebTrace platform → Bool
  | [] => false
  | entry :: earlier => outdated task earlier || resets entry && earlier.any (readsCredential task)

/-- The hash of a token that a login issues. -/
def issues (task : Nat) : Entry (web platform) → Option String
  | .performed other (.execute (.insertWebDevice _ _ tokenHash)) _ (.ok _) =>
    if other = task then some tokenHash else none
  | _ => none

/-- The devices that an entry revokes: one by its id, or all of them. -/
def revokes : Entry (web platform) → List String
  | .performed _ (.execute (.revokeActive id)) _ (.ok true) => [id]
  | .performed _ (.execute .resetWebPassword) before (.ok _) => before.tables.devices.map (·.id)
  | _ => []

/-- The device whose token a task presented. -/
def authenticates (task : Nat) (device : String) : Entry (web platform) → Bool
  | .performed other (.execute (.findWebDeviceByTokenHash _)) _ (.ok (some row)) => other = task && row.id = device
  | _ => false

/-- A task reads a passkey that a device enrolled. -/
def readsPasskeyOf (task : Nat) (device : String) : Entry (web platform) → Bool
  | .performed other (.execute (.findWebPasskeyByCredentialId _)) _ (.ok (some row)) =>
    other = task && row.deviceId = device
  | _ => false

/-- A task has issued its token, or has answered. -/
def spends (task : Nat) : Entry (web platform) → Bool
  | .performed other (.execute (.insertWebDevice ..)) _ _
  | .performed other (.execute (.trySetInitialWebPasswordAndDevice ..)) _ _
  | .performed other (.respond _) _ _ => other = task
  | _ => false

/-- A request that does something for the device it was let in for: a socket, a
reauthentication or an enrolment. -/
def actsForDevice : WebJob → Bool
  | .http { route := .bearer _ (.ws _), .. } | .http { route := .bearer _ (.reauth _), .. }
  | .http { route := .bearer _ (.passkeyRegisterFinish _), .. } => true
  | _ => false

def acts (task : Nat) : Entry (web platform) → Bool
  | .launched other job => other = task && actsForDevice job
  | _ => false

/-- A request is under way that was let in as the device, or that logs in with one of
its passkeys. -/
def underWay (device : String) (trace : WebTrace platform) : Bool :=
  trace.any fun entry => entry.task.any fun task =>
    (authenticates task device entry && trace.any (acts task) || readsPasskeyOf task device entry) &&
      !trace.any (spends task)

/-- The device that a line names, if it is a command at all. -/
def namesDevice (platform : AuthPlatform) (line device : String) : Bool :=
  ((platform.decode line).bind (·.deviceId)).any (·.text = device)

/-- An entry that does something on the strength of a device: it forwards a command of
it, lets its token in, opens a socket for it, or issues a token for one of its
passkeys. -/
def exercises (device : String) (trace : WebTrace platform) : Entry (web platform) → Bool
  | .performed _ (.forward _ line) _ _ => namesDevice platform line device
  | .performed _ (.execute (.findWebDeviceByTokenHash _)) _ (.ok (some row)) => row.id = device
  | .performed task .connect _ _ => trace.any (authenticates task device)
  | .performed task (.execute (.insertWebDevice ..)) _ (.ok _) => trace.any (readsPasskeyOf task device)
  | _ => false

end WebTrace

/-- The stored counter of a credential, where a missing row counts as zero. -/
def WebShared.stored (shared : WebShared) (id : String) : Nat :=
  (shared.tables.signCount id).getD 0

/-- The stored counter in each state so far, newest first. -/
def storedCounts (platform : AuthPlatform) (id : String) (system : System (web platform)) : List Nat :=
  system.shared.stored id :: system.trace.filterMap fun entry =>
    match entry with
    | .performed _ _ before _ => some (before.stored id)
    | _ => none

/-- The counters of a credential go up, and never down. -/
structure CountersMonotone (platform : AuthPlatform) (system : System (web platform)) : Prop where
  increasing : ∀ id, ((system.trace.filterMap (WebTrace.accepts id)).filter (0 < ·)).Pairwise (· > ·)
  neverLowered : ∀ id, (storedCounts platform id system).Pairwise (· ≥ ·)
  regressionRefused : ∀ task id count before reply,
    .performed task (.execute (.updatePasskeySignCount id count)) before reply ∈ system.trace →
    0 < before.stored id → before.stored id < count

/-- Only passkey logins run, each with its two requests. -/
def passkeyLogins (platform : AuthPlatform) : Guard (web platform) where
  admits job _ :=
    match job with
    | .http { route := .anyone .passkeyLoginStart, .. } | .http { route := .anyone (.passkeyLoginFinish _), .. } => true
    | _ => false

/-- An assertion is accepted with a counter above all that its login cannot have seen,
or with none while none is stored. -/
def countersInOrder (platform : AuthPlatform) : Guard (web platform) where
  admits := (passkeyLogins platform).admits
  grants task _ op trace shared :=
    match op with
    | .execute (.updatePasskeySignCount id count) =>
      if count = 0 then shared.stored id = 0 else (WebTrace.unseen task id trace).all (· < count)
    | _ => true

/-- No token that a login issued on the strength of a credential from before a reset
is let in after it. -/
def TokensReset (platform : AuthPlatform) (system : System (web platform)) : Prop :=
  ∀ task tokenHash, WebTrace.outdated task system.trace = true →
    tokenHash ∈ system.trace.filterMap (WebTrace.issues task) → system.shared.tables.valid tokenHash = false

/-- A login does not issue its token once a reset has come in between. -/
def loginsCurrent (platform : AuthPlatform) : Guard (web platform) where
  grants task _ op trace _ :=
    match op with
    | .execute (.insertWebDevice ..) => !WebTrace.outdated task trace
    | _ => true

/-- After its revocation a device is not fresh, and nothing is done on the strength of
it. -/
def RevocationEffective (platform : AuthPlatform) (system : System (web platform)) : Prop :=
  ∀ later revocation earlier device, system.trace = later ++ revocation :: earlier →
    device ∈ WebTrace.revokes revocation →
    (system.shared.reauth.isFresh { text := device } system.shared.instant).1 = false ∧
      ∀ entry ∈ later, WebTrace.exercises device system.trace entry = false

/-- A device that can be revoked at once: it is not fresh and no line to make it so is
unread, and nothing is under way on the strength of it. -/
def quietDevice (platform : AuthPlatform) (device : String) (trace : WebTrace platform) (shared : WebShared) : Bool :=
  !(shared.reauth.isFresh { text := device } shared.instant).1 &&
    (shared.lanes.all fun unread => unread.all fun line =>
      decide (WebShared.marks platform line ≠ some { text := device })) &&
    !WebTrace.underWay device trace

/-- A device is revoked while it is quiet and has no passkeys of its own. A reset finds
every device quiet. -/
def revokedQuietly (platform : AuthPlatform) : Guard (web platform) where
  grants _ choice op trace shared :=
    match op with
    | .execute (.revokeActive id) =>
      choice ≠ .proceed || !(shared.tables.revokeActive id).1 ||
        quietDevice platform id trace shared && shared.tables.passkeys.all (·.deviceId ≠ id)
    | .execute .resetWebPassword =>
      choice ≠ .proceed || shared.tables.devices.all fun row => quietDevice platform row.id trace shared
    | _ => true

end Wisphive
