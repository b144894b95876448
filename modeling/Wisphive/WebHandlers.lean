import Wisphive.Foundation.Program
import Wisphive.WebSessions

/-! The requests of the web process: the security middleware, logins by password and
by passkey, enrolment, reauthentication, revocation and the bridge, one statement or
one outside call at a time. -/

namespace Wisphive
open Foundation

inductive WebAuthError where
  | notFound
  | revoked
  | duplicate
  | db
  deriving DecidableEq, Repr

structure WebDeviceRow where
  id : String
  name : String
  tokenHash : String
  revoked : Bool := false
  deriving DecidableEq, Repr

structure WebPasskeyRow where
  id : String
  deviceId : String
  publicKey : String
  signCount : Nat := 0
  deriving DecidableEq, Repr

structure WebAuthTables where
  password : Option String := none
  devices : List WebDeviceRow := []
  passkeys : List WebPasskeyRow := []
  deriving DecidableEq, Repr

namespace WebAuthTables

def setWebPassword (tables : WebAuthTables) (argon2Hash : String) : WebAuthTables :=
  { tables with password := some argon2Hash }

/-- The hash is replaced only while it is the expected one. -/
def replaceWebPasswordHashIfCurrent (tables : WebAuthTables) (expected replacement : String) : Bool × WebAuthTables :=
  if tables.password = some expected then (true, { tables with password := some replacement }) else (false, tables)

/-- Everything goes in one transaction. -/
def resetWebPassword (_ : WebAuthTables) : WebAuthTables := {}

/-- Ids and token hashes are unique. -/
def insertWebDevice (tables : WebAuthTables) (id name tokenHash : String) : Except WebAuthError WebAuthTables :=
  if tables.devices.any fun row => row.id = id || row.tokenHash = tokenHash then .error .duplicate
  else .ok { tables with devices := tables.devices ++ [{ id, name, tokenHash }] }

/-- The first password and its device persist together or not at all. -/
def trySetInitialWebPasswordAndDevice (tables : WebAuthTables) (argon2Hash id name tokenHash : String) :
    Except WebAuthError (Bool × WebAuthTables) :=
  match tables.password with
  | some _ => .ok (false, tables)
  | none => ({ tables with password := some argon2Hash }.insertWebDevice id name tokenHash).map (true, ·)

/-- A revoked token is found no more than an unknown one. -/
def findWebDeviceByTokenHash (tables : WebAuthTables) (tokenHash : String) : Option WebDeviceRow :=
  tables.devices.find? fun row => row.tokenHash = tokenHash && !row.revoked

/-- The update of a revocation, and whether there was an active row. -/
def revokeActive (tables : WebAuthTables) (id : String) : Bool × WebAuthTables :=
  (tables.devices.any fun row => row.id = id && !row.revoked,
    { tables with devices := tables.devices.map fun row => if row.id = id then { row with revoked := true } else row })

/-- A passkey belongs to a device, and its id is unique. -/
def insertWebPasskey (tables : WebAuthTables) (row : WebPasskeyRow) : Except WebAuthError WebAuthTables :=
  if tables.passkeys.any (·.id = row.id) then .error .duplicate
  else if tables.devices.all (·.id ≠ row.deviceId) then .error .db
  else .ok { tables with passkeys := tables.passkeys ++ [row] }

def findWebPasskeyByCredentialId (tables : WebAuthTables) (id : String) : Option WebPasskeyRow :=
  tables.passkeys.find? (·.id = id)

def updatePasskeySignCount (tables : WebAuthTables) (id : String) (count : Nat) : WebAuthTables :=
  { tables with
    passkeys := tables.passkeys.map fun row => if row.id = id then { row with signCount := count } else row }

/-- The stored counter of a credential. -/
def signCount (tables : WebAuthTables) (id : String) : Option Nat :=
  (tables.findWebPasskeyByCredentialId id).map (·.signCount)

/-- A token that the middleware lets in. -/
def valid (tables : WebAuthTables) (tokenHash : String) : Bool :=
  (tables.findWebDeviceByTokenHash tokenHash).isSome

end WebAuthTables

inductive WebStatement where
  | getWebPasswordHash
  | setWebPassword (argon2Hash : String)
  | trySetInitialWebPasswordAndDevice (argon2Hash id name tokenHash : String)
  | replaceWebPasswordHashIfCurrent (expected replacement : String)
  | resetWebPassword
  | insertWebDevice (id name tokenHash : String)
  | findWebDeviceByTokenHash (tokenHash : String)
  | revokeActive (id : String)
  | deviceExists (id : String)
  | listWebDevices
  | insertWebPasskey (row : WebPasskeyRow)
  | listWebPasskeysForDevice (deviceId : String)
  | findWebPasskeyByCredentialId (id : String)
  | updatePasskeySignCount (id : String) (count : Nat)
  deriving DecidableEq, Repr

namespace WebStatement

@[reducible] def Reply : WebStatement → Type
  | .getWebPasswordHash => Option String
  | .setWebPassword _ | .resetWebPassword | .insertWebDevice .. | .insertWebPasskey _
  | .updatePasskeySignCount .. => Unit
  | .trySetInitialWebPasswordAndDevice .. | .replaceWebPasswordHashIfCurrent .. | .revokeActive _
  | .deviceExists _ => Bool
  | .findWebDeviceByTokenHash _ => Option WebDeviceRow
  | .listWebDevices => List WebDeviceRow
  | .listWebPasskeysForDevice _ => List WebPasskeyRow
  | .findWebPasskeyByCredentialId _ => Option WebPasskeyRow

/-- What a statement answers and leaves behind. An error leaves everything as it was. -/
def execute (tables : WebAuthTables) : (statement : WebStatement) → Except WebAuthError (statement.Reply × WebAuthTables)
  | .getWebPasswordHash => .ok (tables.password, tables)
  | .setWebPassword argon2Hash => .ok ((), tables.setWebPassword argon2Hash)
  | .trySetInitialWebPasswordAndDevice argon2Hash id name tokenHash =>
    tables.trySetInitialWebPasswordAndDevice argon2Hash id name tokenHash
  | .replaceWebPasswordHashIfCurrent expected replacement =>
    .ok (tables.replaceWebPasswordHashIfCurrent expected replacement)
  | .resetWebPassword => .ok ((), tables.resetWebPassword)
  | .insertWebDevice id name tokenHash => (tables.insertWebDevice id name tokenHash).map ((), ·)
  | .findWebDeviceByTokenHash tokenHash => .ok (tables.findWebDeviceByTokenHash tokenHash, tables)
  | .revokeActive id => .ok (tables.revokeActive id)
  | .deviceExists id => .ok (tables.devices.any (·.id = id), tables)
  | .listWebDevices => .ok (tables.devices, tables)
  | .insertWebPasskey row => (tables.insertWebPasskey row).map ((), ·)
  | .listWebPasskeysForDevice deviceId => .ok (tables.passkeys.filter (·.deviceId = deviceId), tables)
  | .findWebPasskeyByCredentialId id => .ok (tables.findWebPasskeyByCredentialId id, tables)
  | .updatePasskeySignCount id count => .ok ((), tables.updatePasskeySignCount id count)

end WebStatement

/-! ### The handlers -/

/-- What the web process takes from its libraries beside the daemon's own text. -/
structure AuthPlatform extends WebPlatform where
  belowFloor : String → Bool
  hashPassword : (salt password : String) → Option String
  sha256Hex : String → String
  credentialId : String → String
  wellFormedPasskey : String → Bool
  finishAuthentication : (credential challenge publicKey : String) → Option Nat
  finishRegistration : (credential challenge : String) → Option (String × String)
  requireSudoForPasskeyRegister : Bool := false

inductive PasswordVerification where
  | ok
  | okRehashNeeded
  | failed
  deriving DecidableEq, Repr

def AuthPlatform.verifyPasswordWithMigration (platform : AuthPlatform) (password phc : String) :
    PasswordVerification :=
  if platform.verifyPassword password phc then
    if platform.belowFloor phc then .okRehashNeeded else .ok
  else .failed

/-- What waits for the second half of a ceremony. -/
inductive ChallengeState where
  | register (state deviceId rpId : String)
  | login (state : String)
  deriving DecidableEq, Repr

structure LoginResponse where
  deviceId : String
  token : String
  enrollingDeviceId : Option String := none
  deriving DecidableEq, Repr

/-- What a request is answered with, last of all. An upgraded one is over when its
socket is closed. -/
inductive WebResponse where
  | text (status : Nat) (body : String)
  | throttled (retryAfter : Nat)
  | failure (status : Nat) (error message : String)
  | loggedIn (login : LoginResponse)
  | challenge (sessionId : String)
  | enrolled (credentialId : String)
  | closed
  deriving DecidableEq, Repr

inductive WebOp where
  | beginAttempt
  | passwordSet
  | markPasswordSet
  | execute (statement : WebStatement)
  | verifyPassword (password phc : String)
  | hashPassword (password : String)
  | generateDevice
  | checkRevokeLimiter (actor : DeviceId)
  | insertChallenge (state : ChallengeState)
  | takeChallenge (sessionId : String)
  | webauthnFor (rpId : String)
  | startCeremony
  | connect
  | forward (lane : Nat) (line : String)
  | awaitAck (lane : Nat)
  | send (message : ServerMessage)
  | respond (response : WebResponse)
  deriving DecidableEq

@[reducible] def WebOp.Reply : WebOp → Type
  | .beginAttempt | .checkRevokeLimiter _ => Except Nat Unit
  | .passwordSet => Except WebAuthError Bool
  | .markPasswordSet | .respond _ => Unit
  | .execute statement => Except WebAuthError statement.Reply
  | .verifyPassword .. => Option PasswordVerification
  | .hashPassword _ | .startCeremony => Option String
  | .generateDevice => String × String
  | .insertChallenge _ => String
  | .takeChallenge _ => Option ChallengeState
  | .webauthnFor _ | .forward .. | .awaitAck _ | .send _ => Bool
  | .connect => Option Nat

abbrev Web := Program WebOp WebOp.Reply

/-- A text frame of a browser, or another one. -/
inductive Frame where
  | text (raw : String)
  | control
  | close
  deriving DecidableEq, Repr

structure LoginRequest where
  password : String
  deviceName : Option String := none
  deriving DecidableEq, Repr

structure PasskeyFinishRequest where
  sessionId : String
  credential : String
  deriving DecidableEq, Repr

/-- The routes of whoever has no token yet. -/
inductive PublicRoute where
  | setPassword (body : LoginRequest)
  | login (body : LoginRequest)
  | passkeyLoginStart
  | passkeyLoginFinish (body : PasskeyFinishRequest)
  deriving DecidableEq, Repr

/-- The routes behind a device token. -/
inductive DeviceRoute where
  | reauth (password : String)
  | logout
  | revokeDevice (targetId password : String)
  | passkeyRegisterStart
  | passkeyRegisterFinish (body : PasskeyFinishRequest)
  | ws (frames : List Frame)
  deriving DecidableEq, Repr

inductive Route where
  | anyone (route : PublicRoute)
  | bearer (token : Option String) (route : DeviceRoute)
  deriving DecidableEq, Repr

/-- A request, what the allowlists make of its host and origin, and the relying party
that its origin resolves to. -/
structure WebRequest where
  route : Route
  rpId : Option String := some "localhost"
  hostAllowed : Bool := true
  originAllowed : Bool := true
  deriving DecidableEq, Repr

namespace WebAuth

def request (op : WebOp) : Web op.Reply := .request op .pure

def execute (statement : WebStatement) : Web (Except WebAuthError statement.Reply) := request (.execute statement)

def minPasswordLen : Nat := 12

/-- The characters within the first bytes, as long as none is cut. -/
private def bytesOf : Nat → List Char → Option (List Char)
  | 0, _ => some []
  | _, [] => none
  | bytes, char :: rest =>
    if char.utf8Size ≤ bytes then (bytesOf (bytes - char.utf8Size) rest).map (char :: ·) else none

/-- The start of an id for people to read. -/
def short (id fallback : String) : String :=
  ((bytesOf 8 id.toList).map String.ofList).getD fallback

def deviceName (body : LoginRequest) (id : String) : String :=
  body.deviceName.getD ("device-" ++ short id "unknown")

section Handlers
variable (platform : AuthPlatform)

/-- The original hash is kept for the exchange. A failed migration is no failed login. -/
def verifyAndMigrateWebPassword (password phc : String) : Web Bool := do
  match ← request (.verifyPassword password phc) with
  | none | some .failed => return false
  | some .ok => return true
  | some .okRehashNeeded =>
    match ← request (.hashPassword password) with
    | none => return true
    | some replacement =>
      let _ ← execute (.replaceWebPasswordHashIfCurrent phc replacement)
      return true

/-- The device row is inserted last. Only the hash of its token is stored. -/
def recordDevice (name : String → String) (enrollingDeviceId : Option String) : Web WebResponse := do
  let (id, token) ← request .generateDevice
  match ← execute (.insertWebDevice id (name id) (platform.sha256Hex token)) with
  | .error _ => return .text 500 "could not record device"
  | .ok () => return .loggedIn { deviceId := id, token, enrollingDeviceId }

def postAuthLogin (body : LoginRequest) : Web WebResponse := do
  match ← request .beginAttempt with
  | .error retryAfter => return .throttled (max retryAfter 1)
  | .ok () =>
    if maxPasswordLen < body.password.utf8ByteSize then return .text 400 "password too long"
    else
      match ← execute .getWebPasswordHash with
      | .ok none => return .text 401 "invalid credentials"
      | .error _ => return .text 500 "internal error"
      | .ok (some phc) =>
        if ← verifyAndMigrateWebPassword body.password phc then recordDevice platform (deviceName body) none
        else return .text 401 "invalid credentials"

def postAuthSetPassword (body : LoginRequest) : Web WebResponse := do
  match ← request .beginAttempt with
  | .error retryAfter => return .throttled (max retryAfter 1)
  | .ok () =>
    if maxPasswordLen < body.password.utf8ByteSize then return .text 400 "password too long"
    else if body.password.utf8ByteSize < minPasswordLen then
      return .text 400 "password must be at least 12 characters"
    else
      match ← request (.hashPassword body.password) with
      | none => return .text 500 "internal error"
      | some phc =>
        let (id, token) ← request .generateDevice
        match ← execute (.trySetInitialWebPasswordAndDevice phc id (deviceName body id) (platform.sha256Hex token)) with
        | .ok true =>
          request .markPasswordSet
          return .loggedIn { deviceId := id, token }
        | .ok false => return .text 409 "password already set; use `wisphive web reset-password`"
        | .error _ => return .text 500 "internal error"

def passkeyUnavailableResponse : WebResponse :=
  .failure 400 "passkey_unavailable_on_this_origin"
    "Passkey enrollment is not available on this origin under the active profile. Switch to a loopback URL (LocalLAN) or the registered domain (Enterprise)."

def postPasskeyLoginStart (rpId : Option String) : Web WebResponse := do
  match ← request .beginAttempt with
  | .error retryAfter => return .throttled (max retryAfter 1)
  | .ok () =>
    match rpId with
    | none => return passkeyUnavailableResponse
    | some rpId =>
      if ← request (.webauthnFor rpId) then
        match ← request .startCeremony with
        | none => return .text 500 "internal error"
        | some state => return .challenge (← request (.insertChallenge (.login state)))
      else return .text 500 "internal error"

/-- The assertion is checked against the row as it was read. The update of the counter
names no expected value, and a failure of it is only logged. -/
def acceptAssertion (body : PasskeyFinishRequest) (state : String) (stored : WebPasskeyRow) : Web WebResponse := do
  if !platform.wellFormedPasskey stored.publicKey then return .text 500 "stored credential corrupt"
  else
    match platform.finishAuthentication body.credential state stored.publicKey with
    | none => return .text 401 "invalid credential"
    | some newCounter =>
      if 0 < newCounter ∧ newCounter ≤ stored.signCount then return .text 401 "counter regression detected"
      else
        let _ ← execute (.updatePasskeySignCount (platform.credentialId body.credential) newCounter)
        recordDevice platform (fun _ => "passkey-" ++ short stored.deviceId "dev") (some stored.deviceId)

def postPasskeyLoginFinish (rpId : Option String) (body : PasskeyFinishRequest) : Web WebResponse := do
  match ← request .beginAttempt with
  | .error retryAfter => return .throttled (max retryAfter 1)
  | .ok () =>
    match rpId with
    | none => return passkeyUnavailableResponse
    | some rpId =>
      match ← request (.takeChallenge body.sessionId) with
      | none => return .text 400 "unknown or expired session"
      | some (.register ..) => return .text 400 "session is not a login ceremony"
      | some (.login state) =>
        if ← request (.webauthnFor rpId) then
          match ← execute (.findWebPasskeyByCredentialId (platform.credentialId body.credential)) with
          | .ok (some stored) => acceptAssertion platform body state stored
          | .ok none => return .text 401 "invalid credential"
          | .error _ => return .text 500 "internal error"
        else return .text 500 "internal error"

def postPasskeyRegisterStart (rpId : Option String) (device : AuthedDevice) : Web WebResponse := do
  match rpId with
  | none => return passkeyUnavailableResponse
  | some rpId =>
    if platform.requireSudoForPasskeyRegister then
      return .failure 403 "sudo_required_for_passkey_register"
        "Passkey enrollment under the Enterprise profile requires a fresh password re-entry (itr#313)."
    else if ← request (.webauthnFor rpId) then
      match ← execute (.listWebPasskeysForDevice device.id.text) with
      | .error _ => return .text 500 "internal error"
      | .ok _ =>
        match ← request .startCeremony with
        | none => return .text 500 "internal error"
        | some state => return .challenge (← request (.insertChallenge (.register state device.id.text rpId)))
    else return .text 500 "internal error"

def postPasskeyRegisterFinish (rpId : Option String) (device : AuthedDevice) (body : PasskeyFinishRequest) :
    Web WebResponse := do
  match rpId with
  | none => return passkeyUnavailableResponse
  | some rpId =>
    match ← request (.takeChallenge body.sessionId) with
    | none => return .text 400 "unknown or expired session"
    | some (.login _) => return .text 400 "session is not a register ceremony"
    | some (.register state stashDeviceId stashRpId) =>
      if stashDeviceId ≠ device.id.text then return .text 400 "session belongs to a different device"
      else if stashRpId ≠ rpId then return .text 400 "rp id changed between start and finish"
      else if ← request (.webauthnFor rpId) then
        match platform.finishRegistration body.credential state with
        | none => return .text 400 "credential verification failed"
        | some (id, publicKey) =>
          match ← execute (.insertWebPasskey { id, deviceId := device.id.text, publicKey }) with
          | .error _ => return .text 500 "could not persist credential"
          | .ok () => return .enrolled id
      else return .text 500 "internal error"

/-- The daemon is told over a connection of its own, and has to acknowledge it. -/
def signalMarkDeviceFresh (device : AuthedDevice) : Web Bool := do
  match ← request .connect with
  | none => return false
  | some lane =>
    match platform.encode { body := .markDeviceFresh, deviceId := some device.id } with
    | none => return false
    | some line => if ← request (.forward lane line) then request (.awaitAck lane) else return false

def postAuthReauth (device : AuthedDevice) (password : String) : Web WebResponse := do
  match ← request .beginAttempt with
  | .error retryAfter => return .throttled (max retryAfter 1)
  | .ok () =>
    if maxPasswordLen < password.utf8ByteSize then return .text 400 "password too long"
    else
      match ← execute .getWebPasswordHash with
      | .ok none => return .text 401 "invalid credentials"
      | .error _ => return .text 500 "internal error"
      | .ok (some phc) =>
        if ← verifyAndMigrateWebPassword password phc then
          if ← signalMarkDeviceFresh platform device then return .text 200 "ok"
          else return .text 503 "daemon not reachable"
        else return .text 401 "invalid credentials"

/-- Revoking again is no error, revoking an unknown device is one. -/
def revokeWebDevice (id : String) : Web (Except WebAuthError Unit) := do
  match ← execute (.revokeActive id) with
  | .error error => return .error error
  | .ok true => return .ok ()
  | .ok false =>
    match ← execute (.deviceExists id) with
    | .error error => return .error error
    | .ok present => return if present then .ok () else .error .notFound

def postAuthLogout (device : AuthedDevice) : Web WebResponse := do
  match ← revokeWebDevice device.id.text with
  | .error _ => return .text 500 "revoke failed"
  | .ok () => return .text 200 "ok"

def verifyRevokePassword (password : String) : Web Bool := do
  match ← request .beginAttempt with
  | .error _ => return false
  | .ok () =>
    if maxPasswordLen < password.utf8ByteSize then return false
    else
      match ← execute .getWebPasswordHash with
      | .ok none | .error _ => return false
      | .ok (some phc) => verifyAndMigrateWebPassword password phc

def postRevokeDevice (actor : AuthedDevice) (targetId password : String) : Web WebResponse := do
  match ← execute .listWebDevices with
  | .error _ => return .text 500 "revoke failed"
  | .ok devices =>
    match devices.find? (·.id = targetId) with
    | none => return .text 404 "device not found"
    | some target =>
      if target.revoked then return .text 200 "ok"
      else if ← verifyRevokePassword password then
        match ← request (.checkRevokeLimiter actor.id) with
        | .error retryAfter => return .throttled (max retryAfter 1)
        | .ok () =>
          match ← revokeWebDevice targetId with
          | .error _ => return .text 500 "revoke failed"
          | .ok () => return .text 200 "ok"
      else return .text 401 "invalid credentials"

def malformedPayloadError (len : Nat) : ServerMessage :=
  .error ("The daemon bridge dropped a malformed message from this browser (" ++ toString len ++
    " bytes): it did not decode as a Wisphive client command. This is a bug or a stale web client — reload the page.")

/-- Frames are forwarded under the device of the upgrade for as long as the socket
lives. -/
def relay (device : AuthedDevice) (lane : Nat) : List Frame → Web Unit
  | [] | .close :: _ => return ()
  | .control :: rest => relay device lane rest
  | .text raw :: rest => do
    match rewrapWithDevice platform.toWebPlatform raw device with
    | none => if ← request (.send (malformedPayloadError raw.utf8ByteSize)) then relay device lane rest
    | some line => if ← request (.forward lane line) then relay device lane rest

def bridge (device : AuthedDevice) (frames : List Frame) : Web WebResponse := do
  match ← request .connect with
  | none => return .closed
  | some lane =>
    relay platform device lane frames
    return .closed

def handlePublic (request : WebRequest) : PublicRoute → Web WebResponse
  | .setPassword body => postAuthSetPassword platform body
  | .login body => postAuthLogin platform body
  | .passkeyLoginStart => postPasskeyLoginStart request.rpId
  | .passkeyLoginFinish body => postPasskeyLoginFinish platform request.rpId body

def handleDevice (request : WebRequest) (device : AuthedDevice) : DeviceRoute → Web WebResponse
  | .reauth password => postAuthReauth platform device password
  | .logout => postAuthLogout device
  | .revokeDevice targetId password => postRevokeDevice device targetId password
  | .passkeyRegisterStart => postPasskeyRegisterStart platform request.rpId device
  | .passkeyRegisterFinish body => postPasskeyRegisterFinish platform request.rpId device body
  | .ws frames => bridge platform device frames

/-- The token is looked up once, before the handler runs. -/
def authenticated (request : WebRequest) : Route → Web WebResponse
  | .anyone route => handlePublic platform request route
  | .bearer none _ => return .text 401 "missing device token"
  | .bearer (some token) route => do
    match ← execute (.findWebDeviceByTokenHash (platform.sha256Hex token)) with
    | .ok (some row) => handleDevice platform request { id := { text := row.id } } route
    | .ok none | .error _ => return .text 401 "invalid device token"

def bypassesSetupGate : Route → Bool
  | .anyone (.setPassword _) => true
  | _ => false

def setupRequiredResponse : WebResponse :=
  .failure 503 "setup_required" "Web UI has no password set; complete setup first."

/-- Host, origin, the setup gate and the token, in this order. -/
def securityMiddleware (incoming : WebRequest) : Web WebResponse := do
  if !incoming.hostAllowed then return .text 403 "host not allowed"
  else if !incoming.originAllowed then return .text 403 "origin not allowed"
  else if bypassesSetupGate incoming.route then authenticated platform incoming incoming.route
  else
    match ← request .passwordSet with
    | .error _ => return .text 500 "internal error"
    | .ok false => return setupRequiredResponse
    | .ok true => authenticated platform incoming incoming.route

end Handlers
end WebAuth

end Wisphive
