import Wisphive.DaemonRuns
import Wisphive.Foundation.Rules
import Wisphive.HookTransport

/-! Denials on their way to the hook: what a connection received from the queue, what was
written on it before it ended, and what its hook answers. -/

namespace Wisphive
open Foundation

def protocolVersion : Nat := 1

namespace Trace

/-- The decision that was in the channel of a connection when its wait ended. -/
def received (connection : Trace) : Option RichDecision :=
  connection.findSome? fun entry =>
    match entry with
    | .performed _ (.wait channel) before _ =>
      match before.received channel with
      | some (.resolved rich) => some rich
      | _ => none
    | _ => none

def denied (connection : Trace) : Bool :=
  (received connection).any (·.decision = .deny)

/-- The wait ended by its timeout. Where a decision is there as well, either may win. -/
def timedOut (connection : Trace) : Bool :=
  connection.any fun entry =>
    match entry with
    | .performed _ (.wait _) _ .timedOut => true
    | _ => false

/-- The messages that were written on a connection, oldest first. -/
def written (connection : Trace) : List ServerMessage :=
  (connection.filterMap fun entry =>
    match entry with
    | .performed _ (.write message) _ true => some message
    | _ => none).reverse

/-- The hook is gone: its disconnection ended the wait, or a message could not be written. -/
def hungUp (connection : Trace) : Bool :=
  connection.any fun entry =>
    match entry with
    | .performed _ (.wait _) _ .disconnected | .performed _ (.write _) _ false => true
    | _ => false

/-- A denial has to reach a hook that is there. -/
def owing (connection : Trace) : Bool :=
  denied connection && !hungUp connection

end Trace

/-- Everything that a hook reads until its connection is closed. -/
def hookStream (connection : Trace) : Bytes :=
  ((ServerMessage.welcome protocolVersion :: Trace.written connection).filterMap ServerMessage.encode).flatMap utf8

/-- What the hook of a connection answers its agent. -/
def hookAnswer (float : String → Option String) (failMode : FailMode) (req : DecisionRequest) (connection : Trace) :
    HookResponse :=
  hookResponse float { incoming := hookStream connection } req.hookEventName req.agentType failMode

/-- A connection that a denial has reached and that ended approves nothing, if its hook
is there to read the answer. -/
def DenialStands (float : String → Option String) (failMode : FailMode) (system : System daemon) (task : Nat) : Prop :=
  ∀ req, Trace.jobOf task system.trace = some (.hook req) → Trace.denied (own task system.trace) = true →
    finished system task = true → Trace.hungUp (own task system.trace) = false →
    (hookAnswer float failMode req (own task system.trace)).decision ≠ .approve

def DenialsStand (float : String → Option String) (failMode : FailMode) (system : System daemon) : Prop :=
  ∀ task, DenialStands float failMode system task

/-- The text of a message is a line that the hook reads. -/
def fitsLine (message : ServerMessage) : Bool :=
  message.encode.all fun line => (utf8 line).length ≤ maxLineBytes

/-- None of the statements of a connection that has to bring a denial fails. Its answer
fits a line, and the denial was not lost to the timeout. -/
def denialsKept : Guard daemon where
  grants task choice request trace _ :=
    match request with
    | .execute _ => !Trace.owing (own task trace) || choice = .proceed
    | .write message => !Trace.owing (own task trace) || choice ≠ .proceed ||
        fitsLine message && !Trace.timedOut (own task trace)
    | _ => true

end Wisphive
