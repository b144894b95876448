import Wisphive.DaemonRuns

/-! The web process beside the daemon: bridged browser sessions and the reauth
endpoint. All they do to the daemon is write lines to its socket. -/

namespace Wisphive
open Foundation

/-- What the web process and the daemon take from their libraries: the text of a
command as one line of JSON, and the verification of a password against a hash. -/
structure WebPlatform where
  encode : ClientCommand → Option String
  decode : String → Option ClientCommand
  verifyPassword : String → String → Bool

/-- A line that decodes again stands for the same kind of command and the same device. -/
structure WebPlatform.Faithful (platform : WebPlatform) : Prop where
  kind : ∀ {command line again}, platform.encode command = some line → platform.decode line = some again →
    again.body.tag = command.body.tag
  device : ∀ {command line again}, platform.encode command = some line → platform.decode line = some again →
    again.deviceId = command.deviceId

/-- The identity that the security middleware has established from the token. -/
structure AuthedDevice where
  id : DeviceId
  deriving DecidableEq, Repr

/-- A browser frame in an envelope with the authenticated device. What is no client
command is dropped. -/
def rewrapWithDevice (platform : WebPlatform) (raw : String) (device : AuthedDevice) : Option String :=
  match platform.decode raw with
  | none => none
  | some command => platform.encode { command with deviceId := some device.id }

/-- A bridged browser, with the lines that the daemon has not read yet. -/
structure Bridge where
  device : AuthedDevice
  unread : List String := []
  deriving DecidableEq, Repr

/-- A reauthentication whose password was verified. Its signal goes to the daemon over
a short-lived connection of its own, and is run by one task at most. -/
structure Reauth (platform : WebPlatform) where
  device : DeviceId
  password : String
  phc : String
  verifiedAt : Instant
  verified : platform.verifyPassword password phc = true
  unread : Option String
  task : Option Nat := none

/-- One request to the reauth endpoint, with what the throttle, the database and the
deadline of the verification make of it. -/
structure ReauthRequest where
  device : AuthedDevice
  password : String
  throttled : Bool := false
  hashReadable : Bool := true
  deadlineMet : Bool := true
  deriving DecidableEq, Repr

def maxPasswordLen : Nat := 4096

structure WebSessions (platform : WebPlatform) where
  system : System daemon
  webPasswordHash : Option String := none
  bridges : List Bridge := []
  reauths : List (Reauth platform) := []

inductive WebEvent where
  | storePasswordHash (phc : Option String)
  | upgrade (device : AuthedDevice)
  | text (bridge : Nat) (raw : String)
  | reauth (request : ReauthRequest)
  | serve (bridge : Nat)
  | serveSignal (reauth : Nat)
  | daemon (event : Event daemon)

/-- The daemon handles a line, if need be in a new task. One that is over the cap or
no command starts nothing. -/
def handleLine (platform : WebPlatform) (system : System daemon) (line : String) : System daemon × Option Nat :=
  if maxLineBytes < line.utf8ByteSize then (system, none)
  else
    match platform.decode line with
    | none => (system, none)
    | some command => (system.launch (.command command), some system.tasks.length)

namespace WebSessions
variable {platform : WebPlatform}

/-- A text frame from a browser. -/
def receiveText (sessions : WebSessions platform) (position : Nat) (raw : String) : Option (WebSessions platform) :=
  sessions.bridges[position]?.map fun bridge =>
    match rewrapWithDevice platform raw bridge.device with
    | none => sessions
    | some line =>
      { sessions with bridges := sessions.bridges.set position { bridge with unread := bridge.unread ++ [line] } }

/-- The password is verified against the stored hash before the daemon is told. -/
def postAuthReauth (sessions : WebSessions platform) (request : ReauthRequest) : WebSessions platform :=
  if request.throttled || maxPasswordLen < request.password.utf8ByteSize || !request.hashReadable ||
      !request.deadlineMet then sessions
  else
    match sessions.webPasswordHash with
    | none => sessions
    | some phc =>
      if verified : platform.verifyPassword request.password phc = true then
        { sessions with
          reauths := sessions.reauths ++ [{
            device := request.device.id
            password := request.password
            phc
            verifiedAt := sessions.system.shared.instant
            verified
            unread := platform.encode { body := .markDeviceFresh, deviceId := some request.device.id } }] }
      else sessions

/-- The daemon reads the next line of a bridge. A line over the cap ends the connection. -/
def serve (sessions : WebSessions platform) (position : Nat) : Option (WebSessions platform) :=
  match sessions.bridges[position]? with
  | some { device, unread := line :: rest } =>
    some { sessions with
      system := (handleLine platform sessions.system line).1
      bridges := sessions.bridges.set position
        { device, unread := if maxLineBytes < line.utf8ByteSize then [] else rest } }
  | _ => none

/-- The daemon reads the signal of a reauthentication. -/
def serveSignal (sessions : WebSessions platform) (position : Nat) : Option (WebSessions platform) :=
  sessions.reauths[position]?.bind fun reauth =>
    reauth.unread.map fun line =>
      let (system, task) := handleLine platform sessions.system line
      { sessions with
        system := system
        reauths := sessions.reauths.set position { reauth with unread := none, task } }

/-- What the daemon does without the web: its own steps, hooks, expiries and the
commands of the local terminal, which name no device. -/
def ofDaemon (sessions : WebSessions platform) (event : Event daemon) : Option (WebSessions platform) :=
  match event with
  | .launch job =>
    if job.device.isSome then none else (sessions.system.step (.launch job)).map ({ sessions with system := · })
  | event => (sessions.system.step event).map ({ sessions with system := · })

def step (sessions : WebSessions platform) : WebEvent → Option (WebSessions platform)
  | .storePasswordHash phc => some { sessions with webPasswordHash := phc }
  | .upgrade device => some { sessions with bridges := sessions.bridges ++ [{ device }] }
  | .text bridge raw => sessions.receiveText bridge raw
  | .reauth request => some (sessions.postAuthReauth request)
  | .serve bridge => sessions.serve bridge
  | .serveSignal reauth => sessions.serveSignal reauth
  | .daemon event => sessions.ofDaemon event

def machine (platform : WebPlatform) : Machine (WebSessions platform) WebEvent where
  start := { system := { shared := {} } }
  step := step

/-- No browser frame is a `mark_device_fresh` command. -/
def Meets (_ : WebSessions platform) : WebEvent → Prop
  | .text _ raw => (platform.decode raw).all (decide <| ·.body ≠ .markDeviceFresh) = true
  | _ => True

instance (sessions : WebSessions platform) (event : WebEvent) : Decidable (sessions.Meets event) :=
  match event with
  | .text _ raw => inferInstanceAs (Decidable ((platform.decode raw).all _ = true))
  | .storePasswordHash _ | .upgrade _ | .reauth _ | .serve _ | .serveSignal _ | .daemon _ => .isTrue trivial

/-- A device that the sudo gate takes as fresh now. -/
def isFresh (sessions : WebSessions platform) (device : DeviceId) : Bool :=
  (sessions.system.shared.reauth.isFresh device sessions.system.shared.instant).1

end WebSessions

namespace Trace

/-- When a task marked a device fresh, newest first. -/
def markedAt (task : Nat) : Trace → List Instant
  | [] => []
  | .performed other (.touch _) before _ :: earlier =>
    if other = task then before.instant :: markedAt task earlier else markedAt task earlier
  | _ :: earlier => markedAt task earlier

end Trace

namespace WebSessions
variable {platform : WebPlatform}

/-- The one signal of a verified reauthentication reached the registry less than the
time to live ago. -/
def Reauthenticated (sessions : WebSessions platform) (device : DeviceId) : Prop :=
  ∃ reauth ∈ sessions.reauths, reauth.device = device ∧ ∃ task signalledAt, reauth.task = some task ∧
    Trace.markedAt task sessions.system.trace = [signalledAt] ∧ reauth.verifiedAt ≤ signalledAt ∧
    signalledAt ≤ sessions.system.shared.instant ∧ sessions.system.shared.instant - signalledAt < reauthTtl

end WebSessions
end Wisphive
