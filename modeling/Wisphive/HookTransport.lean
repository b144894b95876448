import Wisphive.WireText

/-! The hook's side of its connection to the daemon: a line is read up to a cap, the
exchange ends in a response or a failure, and a failure is answered by its kind. -/

namespace Wisphive
open Foundation EventIngest

def utf8 (text : String) : Bytes :=
  text.toUTF8.data.toList

inductive FailMode where
  | openly
  | closed
  deriving DecidableEq, Repr

inductive HookFailureKind where
  | runtime
  | invalidInput
  | inputTooLarge
  | daemonUnreachable
  | daemonRejected
  | unrecognizedProvider
  deriving DecidableEq, Repr

structure HookResponse where
  decision : Decision
  message : Option String := none
  updatedInput : Option Json := none
  additionalContext : Option String := none
  selectedPermission : Option PermissionSuggestion := none
  eventType : HookEventType
  agentType : AgentType
  deriving DecidableEq, Repr

structure HookFailure where
  kind : HookFailureKind
  message : String
  eventType : HookEventType
  agentType : AgentType
  decidedBy : Option String := none
  deriving DecidableEq, Repr

namespace HookFailure

def denyResponse (failure : HookFailure) : HookResponse :=
  { decision := .deny, message := some failure.message, eventType := failure.eventType, agentType := failure.agentType }

end HookFailure

/-- An outage approves, and so does what only reports. Input that is refused denies.
What is left follows the fail mode. -/
def responseForFailure (failure : HookFailure) (failMode : FailMode) : HookResponse :=
  let approve : HookResponse :=
    { decision := .approve, eventType := failure.eventType, agentType := failure.agentType }
  if failure.kind = .inputTooLarge ∨ failure.kind = .invalidInput then failure.denyResponse
  else if failure.eventType = .postToolUse then approve
  else if failure.kind = .daemonUnreachable then approve
  else if failMode = .closed then failure.denyResponse
  else approve

/-- A line up to its end, or what is left when the other side has closed, and what
follows. A read that fails only does so behind what has arrived. -/
def readLineCapped (incoming : Bytes) (fault : Option String) (maxBytes : Nat) : Except String (String × Bytes) :=
  let line := (Lines.complete newline incoming).head?
  let taken := line.getD incoming
  if maxBytes < taken.length then .error ("daemon line exceeded " ++ toString maxBytes ++ "-byte cap")
  else
    match line, fault with
    | none, some error => .error error
    | _, _ =>
      match decode taken with
      | some text => .ok (text, incoming.drop taken.length)
      | none => .error "invalid utf-8 sequence"

/-- What the hook's calls on its socket come to, and everything that arrives on it. -/
structure DaemonSocket where
  connect : Except String Unit := .ok ()
  setReadTimeout : Except String Unit := .ok ()
  setWriteTimeout : Except String Unit := .ok ()
  tryClone : Except String Unit := .ok ()
  writeHello : Except String Unit := .ok ()
  writeRequest : Except String Unit := .ok ()
  clearReadTimeout : Except String Unit := .ok ()
  incoming : Bytes := []
  fault : Option String := none

section
variable (float : String → Option String) (socket : DaemonSocket) (eventType : HookEventType) (agentType : AgentType)

def runtimeFailure (message : String) : HookFailure :=
  { kind := .runtime, message, eventType, agentType }

def withContext (kind : HookFailureKind) (context error : String) : HookFailure :=
  { kind, message := context ++ ": " ++ error, eventType, agentType }

/-- A call on the socket that fails shows that the daemon is not there. -/
def reach {α : Type} (context : String) (outcome : Except String α) : Except HookFailure α :=
  outcome.mapError (withContext eventType agentType .daemonUnreachable context)

def daemonRejected (context error decidedBy : String) : HookFailure :=
  { withContext eventType agentType .daemonRejected context error with decidedBy := some decidedBy }

/-- The handshake: what follows the welcome. A reply that can be read and is no welcome
is a rejection, anything else is an outage. -/
def readWelcome (incoming : Bytes) : Except HookFailure Bytes := do
  let (line, rest) ← reach eventType agentType "failed to read daemon welcome"
    (readLineCapped incoming socket.fault maxLineBytes)
  if trim line = "" then
    .error (withContext eventType agentType .daemonUnreachable
      "Wisphive daemon closed the connection during handshake" "no welcome received (EOF)")
  else
    match ServerMessage.decode float line with
    | none => .error (withContext eventType agentType .daemonUnreachable "failed to parse daemon welcome" "")
    | some (.welcome _) => .ok rest
    | some (.overloaded message) => .error (daemonRejected eventType agentType
        "Wisphive daemon is at connection capacity and shed this decision" message "daemon_overloaded:capacity")
    | some (.error message) => .error (daemonRejected eventType agentType
        "Wisphive daemon rejected the connection during handshake" message "daemon_rejected:handshake_error")
    | some _ => .error (daemonRejected eventType agentType "Wisphive daemon sent an unexpected welcome response"
        "handshake did not complete" "daemon_rejected:unexpected_welcome")

/-- The reply to the request. The end of the stream is an outage, a reply that is no
decision is a failure of a daemon that is there. -/
def readDecision (incoming : Bytes) : Except HookFailure HookResponse := do
  let (line, _) ← reach eventType agentType "failed to read daemon decision response"
    (readLineCapped incoming socket.fault maxLineBytes)
  if trim line = "" then
    .error (withContext eventType agentType .daemonUnreachable
      "Wisphive daemon closed the connection before returning a decision" "no decision received (EOF)")
  else
    match ServerMessage.decode float line with
    | none => .error (withContext eventType agentType .runtime "failed to parse daemon decision response" "")
    | some (.decisionResponse _ decision message updatedInput additionalContext selectedPermission) =>
      .ok { decision, message, updatedInput, additionalContext, selectedPermission, eventType, agentType }
    | some (.error message) => .error (runtimeFailure eventType agentType
        ("Wisphive daemon returned an error instead of a decision: " ++ message))
    | some _ => .error (runtimeFailure eventType agentType
        "Wisphive daemon sent an unexpected response to a decision request")

/-- Connect, shake hands, send the request and wait for its decision. The reasons that
deserialization gives are left out of the messages. -/
def requestDecision : Except HookFailure HookResponse := do
  reach eventType agentType "failed to connect to Wisphive daemon" socket.connect
  reach eventType agentType "failed to configure daemon read timeout" socket.setReadTimeout
  reach eventType agentType "failed to configure daemon write timeout" socket.setWriteTimeout
  reach eventType agentType "failed to clone daemon socket" socket.tryClone
  reach eventType agentType "failed to write daemon hello" socket.writeHello
  let rest ← readWelcome float socket eventType agentType socket.incoming
  reach eventType agentType "failed to write decision request" socket.writeRequest
  reach eventType agentType "failed to clear daemon read timeout" socket.clearReadTimeout
  readDecision float socket eventType agentType rest

/-- What the hook answers. (A deferral that no prompt can receive is denied afterwards.) -/
def hookResponse (failMode : FailMode) : HookResponse :=
  match requestDecision float socket eventType agentType with
  | .ok response => response
  | .error failed => responseForFailure failed failMode

end
end Wisphive
